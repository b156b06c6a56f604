import NestedSite.Method.Number
import NestedSite.Method.Text
import NestedSite.Proofs.Method.Scalar
import NestedSite.Proofs.Relocation.Operators

/-!
# Methods of texts, bytes and numbers with arguments that are moved

These methods hold no places in their receivers, and give for moved arguments what they give for the arguments, moved
(`Run.callText_moves`, `Run.callBytes_moves`, `Run.callInt_moves`, `Run.callFloat_moves`).
-/

namespace NestedSite

variable {ρ : Relocation}

namespace TextMethod

theorem boundOf_moves (v : Option Value) : Moves ρ id (boundOf v) (boundOf (v.map (Value.moved ρ))) := by
  cases v with
  | none => exact .pure rfl
  | some v => exact Run.bound?_moves v

theorem textOf?_moves (v : Option Value) : Moves ρ id (textOf? v) (textOf? (v.map (Value.moved ρ))) := by
  rcases v with _ | v
  · exact .pure rfl
  · cases v
    case none => exact .pure rfl
    case text t => exact .pure rfl
    all_goals exact .wrongType

theorem limitOf_moves (v : Option Value) : Moves ρ id (limitOf v) (limitOf (v.map (Value.moved ρ))) := by
  cases v with
  | none => exact .pure rfl
  | some v => exact (Run.expectSize_moves v).bindPlain fun _ => .pure rfl

theorem find_moves (cs : List Char) (args : Arguments) (fromEnd : Bool) :
    Moves ρ id (find cs args fromEnd) (find cs (args.moved ρ) fromEnd) := by
  refine (args.assign_moves _).bind fun vs => ?_
  rcases vs with _ | ⟨_ | sub, _ | ⟨start, _ | ⟨stop, _ | _⟩⟩⟩
  case cons.some.cons.cons.nil =>
    refine (Run.expectText_moves sub).bindPlain fun part => (boundOf_moves start).bindPlain fun start => ?_
    refine (boundOf_moves stop).bindPlain fun stop => ?_
    split
    · exact .pure rfl
    · exact .pure rfl
  all_goals exact .wrongType

theorem anyOf_moves (has : String → Bool) (vs : List Value) :
    Moves ρ (Value.moved ρ) (borders.anyOf has vs) (borders.anyOf has (vs.map (Value.moved ρ))) := by
  induction vs with
  | nil => exact .pure rfl
  | cons v vs ih =>
    cases v
    case text part => exact .ite (fun _ => .pure rfl) fun _ => ih
    all_goals exact .wrongType

theorem borders_moves (cs : List Char) (args : Arguments) (atEnd : Bool) :
    Moves ρ (Value.moved ρ) (borders cs args atEnd) (borders cs (args.moved ρ) atEnd) := by
  refine (args.assign_moves _).bind fun vs => ?_
  rcases vs with _ | ⟨_ | part, _ | ⟨start, _ | ⟨stop, _ | _⟩⟩⟩
  case cons.some.cons.cons.nil =>
    refine (boundOf_moves start).bindPlain fun start => (boundOf_moves stop).bindPlain fun stop => ?_
    cases part
    case text part => exact .pure rfl
    case tuple parts =>
      dsimp only [Option.map, Value.moved]
      rw [Value.movedAll_eq_map]
      exact anyOf_moves _ parts
    all_goals exact .wrongType
  all_goals exact .wrongType

theorem justify_moves (cs : List Char) (args : Arguments) (leftOf : Nat → Nat → Nat) :
    Moves ρ (Value.moved ρ) (justify cs args leftOf) (justify cs (args.moved ρ) leftOf) := by
  refine (args.assign_moves _).bind fun vs => ?_
  rcases vs with _ | ⟨_ | width, _ | ⟨fill, _ | _⟩⟩
  case cons.some.cons.nil =>
    refine (Run.expectSize_moves width).bindPlain fun width => ?_
    extract_lets missing left next
    have filled (c : Char) : Moves ρ (Value.moved ρ) (next c) (next c) :=
      (Run.pure_moves _).bindPlain fun _ => .pure rfl
    rcases fill with _ | fill
    · exact filled ' '
    · cases fill
      case text t =>
        dsimp only [Option.map, Value.moved]
        split
        · exact filled _
        · exact .wrongType_bind
      all_goals exact .wrongType_bind
  all_goals exact .wrongType

theorem stripped_moves (cs : List Char) (args : Arguments) (cut : (Char → Bool) → List Char → List Char) :
    Moves ρ (Value.moved ρ) (stripped cs args cut) (stripped cs (args.moved ρ) cut) := by
  refine (args.assign_moves _).bind fun vs => ?_
  rcases vs with _ | ⟨chars, _ | _⟩
  case cons.nil =>
    refine (textOf?_moves chars).bindPlain fun set => ?_
    cases set with
    | none => exact .pure rfl
    | some set => exact .pure rfl
  all_goals exact .wrongType

theorem cuts_moves (cs : List Char) (args : Arguments) (fromEnd : Bool) :
    Moves ρ (Value.moved ρ) (cuts cs args fromEnd) (cuts cs (args.moved ρ) fromEnd) := by
  refine (args.assign_moves _).bind fun vs => ?_
  rcases vs with _ | ⟨sep, _ | ⟨limit, _ | _⟩⟩
  case cons.cons.nil =>
    refine (textOf?_moves sep).bindPlain fun sep => (limitOf_moves limit).bindPlain fun limit => ?_
    have listed (pieces : List (List Char)) : Moves ρ (Value.moved ρ)
        (Run.newList (pieces.map fun p => .text (.ofList p))) (Run.newList (pieces.map fun p => .text (.ofList p))) :=
      Run.newList_moves (map_moved_of_plain (fun _ => rfl) pieces).symm
    rcases sep with _ | _ | _
    · exact listed _
    · exact .throw_bind
    · exact listed _
  all_goals exact .wrongType

theorem parted_moves (cs : List Char) (args : Arguments) (fromEnd : Bool) :
    Moves ρ (Value.moved ρ) (parted cs args fromEnd) (parted cs (args.moved ρ) fromEnd) := by
  refine args.oneText_moves fun sep => .guard fun _ => ?_
  split
  · exact .pure rfl
  · refine .pure ?_
    split <;> rfl

theorem joined_moves (sep : List Char) : ∀ vs : List Value,
    Moves ρ id (joined sep vs) (joined sep (vs.map (Value.moved ρ)))
  | [] => .pure rfl
  | [v] => by
    cases v
    case text t => exact .pure rfl
    all_goals exact .wrongType
  | v :: w :: vs => by
    cases v
    case text t => exact (joined_moves sep (w :: vs)).bindPlain fun _ => .pure rfl
    all_goals exact .wrongType

theorem mapped_moves (table : Value) : ∀ cs : List Char, Moves ρ id (mapped table cs) (mapped (table.moved ρ) cs)
  | [] => by
    unfold mapped
    exact .pure rfl
  | c :: cs => by
    have ih := mapped_moves table cs
    unfold mapped
    refine Moves.bind (f := Option.map (Value.moved ρ)) ?_ fun image => ?_
    · have image : Moves ρ (Option.map (Value.moved ρ)) (some <$> Run.subscript table (.int c.toNat))
          (some <$> Run.subscript (table.moved ρ) (.int c.toNat)) :=
        (Run.subscript_moves table (.int c.toNat)).map fun _ => rfl
      refine image.tryCatch fun e => ?_
      split
      · exact .pure rfl
      · exact .pure rfl
      · exact .throw
    · have written (t : List Char) : Moves ρ id (do return t :: (← mapped table cs))
          (do return t :: (← mapped (table.moved ρ) cs)) := ih.bindPlain fun _ => .pure rfl
      cases image with
      | none => exact written [c]
      | some v =>
        cases v
        case none => exact written []
        case text t => exact written t.toList
        case int n =>
          dsimp only [Option.map, Value.moved, Value.int?]
          cases character? n with
          | none => exact .throw_bind
          | some d => exact written [d]
        case bool b =>
          dsimp only [Option.map, Value.moved, Value.int?]
          cases character? (if b then 1 else 0) with
          | none => exact .throw_bind
          | some d => exact written [d]
        all_goals exact .wrongType_bind

theorem codingNames_moves (args : Arguments) : Moves ρ id (codingNames args) (codingNames (args.moved ρ)) := by
  refine (args.assign_moves _).bind fun vs => ?_
  rcases vs with _ | ⟨name, _ | ⟨errors, _ | _⟩⟩
  case cons.cons.nil =>
    refine optional_moves Run.expectText_moves name fun name => ?_
    exact optional_moves Run.expectText_moves errors fun errors => .pure rfl
  all_goals exact .wrongType

theorem table_moves (args : Arguments) : Moves ρ (Value.moved ρ) (table args) (table (args.moved ρ)) := by
  unfold table
  refine (args.assign_moves _).bind fun vs => ?_
  rcases vs with _ | ⟨_ | x, _ | ⟨y, _ | ⟨z, _ | _⟩⟩⟩
  case cons.some.cons.cons.nil =>
    cases x
    case dict p =>
      rcases y with _ | y
      · rcases z with _ | z
        · refine (Run.dict_moves p).bind fun es => ?_
          refine Moves.bind (f := Entries.moved ρ) (.mapM fun e => ?_) fun es => ?_
          · obtain ⟨k, v⟩ := e
            refine Moves.bind (f := Value.moved ρ) ?_ fun _ => .pure rfl
            cases k
            case text t =>
              dsimp only [Value.moved]
              split
              · exact .pure rfl
              · exact .throw
            case int n => exact .pure rfl
            case bool b => exact .pure rfl
            all_goals exact .wrongType
          · exact Run.newDict_moves (Entries.merge_moved ρ [] es)
        · exact .wrongType
      · exact .wrongType
    case text t =>
      rcases y with _ | y
      · exact .wrongType
      · cases y
        case text u =>
          refine .guard fun _ => ?_
          extract_lets pairs next
          have hpairs : Entries.moved ρ pairs = pairs := by
            simp only [pairs, Entries.moved, List.map_map, Function.comp_def, Value.moved]
          have hnext (removed : Entries) : Moves ρ (Value.moved ρ) (next removed) (next (removed.moved ρ)) := by
            refine Run.newDict_moves ?_
            rw [← Entries.merge_moved, Entries.moved_append, hpairs, Entries.moved_nil]
          rcases z with _ | z
          · exact hnext []
          · cases z
            case text w =>
              have h := hnext (w.toList.map fun c => (Value.int c.toNat, Value.none))
              simp only [Entries.moved, List.map_map, Function.comp_def, Value.moved] at h
              exact h
            all_goals exact .wrongType_bind
        all_goals exact .wrongType
    all_goals exact .wrongType
  case cons.some.nil => cases x <;> exact .wrongType
  case cons.some.cons.nil =>
    cases x
    case text t =>
      rcases y with _ | y
      · exact .wrongType
      · cases y <;> exact .wrongType
    case dict p => cases y <;> exact .wrongType
    all_goals exact .wrongType
  case cons.some.cons.cons.cons =>
    cases x
    case text t =>
      rcases y with _ | y
      · exact .wrongType
      · cases y <;> exact .wrongType
    case dict p => cases y <;> cases z <;> exact .wrongType
    all_goals exact .wrongType
  all_goals exact .wrongType

theorem codingNamed_moves (name : String) : Moves ρ id (codingNamed name) (codingNamed name) := by
  unfold codingNamed
  split
  · exact .pure rfl
  · exact .throw

end TextMethod

namespace Run

open TextMethod

theorem callText_moves (t name : String) (args : Arguments) :
    Moves ρ (Value.moved ρ) (callText t name args) (callText t name (args.moved ρ)) := by
  unfold callText
  extract_lets cs ofChars
  split
  · exact (args.exactly_moves 0).discard.bindPlain fun _ => .pure rfl
  · exact (args.exactly_moves 0).discard.bindPlain fun _ => .pure rfl
  · split
    · exact justify_moves cs args _
    · exact justify_moves cs args _
    · exact justify_moves cs args _
    · refine (args.assign_moves _).bind fun vs => ?_
      rcases vs with _ | ⟨_ | sub, _ | ⟨start, _ | ⟨stop, _ | _⟩⟩⟩
      case cons.some.cons.cons.nil =>
        refine (expectText_moves sub).bindPlain fun part => (boundOf_moves start).bindPlain fun start => ?_
        refine (boundOf_moves stop).bindPlain fun stop => ?_
        split
        · exact .pure rfl
        · exact .pure rfl
      all_goals exact .wrongType
    · refine (codingNames_moves args).bindPlain fun r => (codingNamed_moves r.1).bindPlain fun c => ?_
      split
      · exact .pure rfl
      · exact .throw
    · exact borders_moves cs args true
    · exact borders_moves cs args false
    · refine (args.assign_moves _).bind fun vs => ?_
      rcases vs with _ | ⟨size, _ | _⟩
      case cons.nil => exact optional_moves expectSize_moves size fun _ => .pure rfl
      all_goals exact .wrongType
    · exact (find_moves cs args false).bindPlain fun _ => .pure rfl
    · exact (find_moves cs args true).bindPlain fun _ => .pure rfl
    · refine (find_moves cs args false).bindPlain fun n => ?_
      cases n with
      | none => exact .throw
      | some n => exact .pure rfl
    · refine (find_moves cs args true).bindPlain fun n => ?_
      cases n with
      | none => exact .throw
      | some n => exact .pure rfl
    · refine args.one_moves fun v => (items_moves v).bind fun vs => ?_
      exact (joined_moves cs vs).bindPlain fun _ => .pure rfl
    · exact stripped_moves cs args _
    · exact stripped_moves cs args _
    · exact stripped_moves cs args _
    · exact table_moves args
    · exact parted_moves cs args false
    · exact parted_moves cs args true
    · exact args.oneText_moves fun part => .pure rfl
    · exact args.oneText_moves fun part => .pure rfl
    · refine (args.assign_moves _).bind fun vs => ?_
      rcases vs with _ | ⟨_ | old, _ | ⟨_ | new, _ | ⟨count, _ | _⟩⟩⟩
      case cons.some.cons.some.cons.nil =>
        refine (expectText_moves old).bindPlain fun old => (expectText_moves new).bindPlain fun new => ?_
        exact (limitOf_moves count).bindPlain fun _ => .pure rfl
      all_goals exact .wrongType
    · exact cuts_moves cs args false
    · exact cuts_moves cs args true
    · refine (args.assign_moves _).bind fun vs => ?_
      have cut (keep : Bool) : Moves ρ (Value.moved ρ) (newList ((Text.lines keep cs).map ofChars))
          (newList ((Text.lines keep cs).map ofChars)) :=
        newList_moves (map_moved_of_plain (fun _ => rfl) _).symm
      rcases vs with _ | ⟨_ | keep, _ | _⟩
      case cons.none.nil => exact cut false
      case cons.some.nil => exact (expectInt_moves keep).bindPlain fun _ => cut _
      all_goals exact .wrongType
    · exact args.one_moves fun v => (mapped_moves v cs).bindPlain fun _ => .pure rfl
    · refine args.one_moves fun v => (expectSize_moves v).bindPlain fun width => ?_
      exact (pure_moves _).bindPlain fun _ => .pure rfl
    · exact .wrongType

theorem callBytes_moves (bs : List UInt8) (name : String) (args : Arguments) :
    Moves ρ (Value.moved ρ) (callBytes bs name args) (callBytes bs name (args.moved ρ)) := by
  unfold callBytes
  split
  · refine (codingNames_moves args).bindPlain fun r => .ite (fun _ => .pure rfl) fun _ => ?_
    refine (codingNamed_moves r.1).bindPlain fun c => ?_
    split
    · exact .pure rfl
    · exact .throw
  · exact (args.exactly_moves 0).discard.bindPlain fun _ => .pure rfl
  · exact .wrongType

/-! ## Numbers -/

theorem callInt_moves (n : Int) (name : String) (args : Arguments) :
    Moves ρ (Value.moved ρ) (callInt n name args) (callInt n name (args.moved ρ)) := by
  unfold callInt
  split
  · refine (args.assign_moves _).bind fun vs => ?_
    rcases vs with _ | ⟨length, _ | ⟨order, _ | ⟨signed, _ | _⟩⟩⟩
    case cons.cons.cons.nil =>
      refine optional_moves expectSize_moves length fun length => optional_moves expectText_moves order fun order => ?_
      exact optional_moves truth_moves signed fun signed => .guard fun _ => .guard fun _ => .pure rfl
    all_goals exact .wrongType
  · refine (args.exactly_moves 0).discard.bindPlain fun _ => ?_
    split
    · exact .pure rfl
    · exact .pure rfl
    · exact .pure rfl
    · exact .pure rfl
    · exact .wrongType

theorem callFloat_moves (x : Float) (name : String) (args : Arguments) :
    Moves ρ (Value.moved ρ) (callFloat x name args) (callFloat x name (args.moved ρ)) := by
  refine (args.exactly_moves 0).discard.bindPlain fun _ => ?_
  split
  · split
    · exact .throw
    · exact .throw
    · exact .pure rfl
  · exact .pure rfl
  · exact .pure rfl
  · exact .pure rfl
  · exact .wrongType

end Run

end NestedSite
