import NestedSite.Method.Call
import NestedSite.Proofs.Relocation.Record
import NestedSite.Proofs.Relocation.Scalar

/-!
# Calls of values that are moved

Calling a value that is moved with arguments that are moved gives what calling the value gives, moved
(`Run.call_moves`). This needs that including a template with a context that is moved goes like including it with the
context (`Host.Moves`).
-/

namespace NestedSite

variable {ρ : Relocation}

/-- Two hosts with the same directory, which include templates alike. -/
structure Host.Moves (ρ : Relocation) (host host' : Host) : Prop where
  cwd : host'.cwd = host.cwd
  renderPartial : ∀ path context, NestedSite.Moves ρ (Value.moved ρ) (host.renderPartial path context)
    (host'.renderPartial (path.moved ρ) (context.moved ρ))

namespace Run

/-! ## Helpers -/

theorem entitle_moves (title context : Value) :
    Moves ρ (Value.moved ρ) (entitle title context) (entitle (title.moved ρ) (context.moved ρ)) := by
  have none : Moves ρ (Value.moved ρ) (do let () ← pure (); return Value.none)
      (do let () ← pure (); return Value.none) := .pure rfl
  cases context
  case dict p =>
    cases title
    case text t =>
      refine .ite (fun _ => (dict_moves p).bind fun es => ?_) fun _ => none
      have found : (es.moved ρ).find? (.text titleKey) = (es.find? (.text titleKey)).map (Value.moved ρ) :=
        Entries.find?_moved ρ es (.text titleKey)
      have titled : Helper.titled t ((es.moved ρ).find? (.text titleKey)) =
          Helper.titled t (es.find? (.text titleKey)) := by
        rw [found]
        rcases es.find? (.text titleKey) with _ | v
        · rfl
        · cases v <;> rfl
      rw [titled]
      exact (setDict_moves (Entries.insert_moved ρ es (.text titleKey) (.text _)) p).seq (.pure rfl)
    all_goals exact none
  all_goals exact none

theorem isActive_moves (cwd : String) (directory context : Value) :
    Moves ρ id (isActive cwd directory context) (isActive cwd (directory.moved ρ) (context.moved ρ)) := by
  cases context
  case dict p =>
    cases directory
    case text t =>
      refine (dict_moves p).bind fun es => ?_
      have found : (es.moved ρ).find? (.text pathKey) = (es.find? (.text pathKey)).map (Value.moved ρ) :=
        Entries.find?_moved ρ es (.text pathKey)
      rw [found]
      rcases es.find? (.text pathKey) with _ | v
      · exact .pure rfl
      · cases v
        case text path => exact .ite (fun _ => .throw) fun _ => .pure rfl
        all_goals exact .pure rfl
    all_goals exact .pure rfl
  all_goals exact .pure rfl

/-! ## Builtin functions -/

theorem lengthOf_moves (v : Value) : Moves ρ (Value.moved ρ) (lengthOf v) (lengthOf (v.moved ρ)) := by
  refine store_bind_moves fun s s' hs => ?_
  rw [Store.length?_moved hs]
  cases s.length? v with
  | none => exact .wrongType
  | some n => exact .ite (fun _ => .throw) fun _ => .pure rfl

theorem expectInts_moves (vs : List Value) :
    Moves ρ id (vs.mapM expectInt) ((vs.map (Value.moved ρ)).mapM expectInt) := .mapM_plain expectInt_moves

theorem makeRange_moves (args : Arguments) : Moves ρ (Value.moved ρ) (makeRange args) (makeRange (args.moved ρ)) := by
  unfold makeRange
  simp only [Arguments.moved, movedFields, List.isEmpty_map]
  refine .refuse fun _ => (expectInts_moves args.positional).bindPlain fun ns => ?_
  split
  · exact .pure rfl
  · exact .pure rfl
  · exact .ite (fun _ => .throw) fun _ => .pure rfl
  · exact .wrongType

/-- A new cursor as a value. -/
theorem started_moves {c c' : Cursor} (h : c' = c.moved ρ) :
    Moves ρ (Value.moved ρ) (do return Value.cursor (← newCursor c)) (do return Value.cursor (← newCursor c')) :=
  (newCursor_moves h).bind fun _ => .pure rfl

theorem makeReversed_moves (v : Value) : Moves ρ (Value.moved ρ) (makeReversed v) (makeReversed (v.moved ρ)) := by
  have backwards : Moves ρ (Value.moved ρ)
      (do return Value.cursor (← newCursor (.items "reversed" (← items v).reverse)))
      (do return Value.cursor (← newCursor (.items "reversed" (← items (v.moved ρ)).reverse))) := by
    refine (items_moves v).bind fun vs => started_moves ?_
    rw [← List.map_reverse]
    rfl
  cases v
  case list p =>
    refine (list_moves p).bind fun vs => started_moves ?_
    rw [List.length_map]
    rfl
  case tuple vs => exact backwards
  case text t => exact backwards
  case bytes bs => exact backwards
  case range a b c => exact started_moves rfl
  case dict p =>
    refine (dict_moves p).bind fun es => started_moves ?_
    rw [Entries.length_moved]
    rfl
  case view kind p =>
    refine (dict_moves p).bind fun es => started_moves ?_
    rw [Entries.length_moved]
    rfl
  all_goals exact .wrongType

/-! ## Keys -/

/-- Functions of one argument that go together. -/
def KeysMove (ρ : Relocation) (f f' : Callback) : Prop :=
  ∀ v : Value, Moves ρ (Value.moved ρ) (f v) (f' (v.moved ρ))

theorem extreme_moves (op : OrderOp) : ∀ (pairs : Entries) (best : Value × Value),
    Moves ρ (Value.moved ρ) (extreme op best pairs) (extreme op (best.1.moved ρ, best.2.moved ρ) (pairs.moved ρ))
  | [], _ => .pure rfl
  | x :: rest, best => by
    refine (read_plain_moves fun _ _ hs => Store.ordered_moved hs op x.1 best.1).bindPlain fun b => ?_
    exact .ite (fun _ => extreme_moves op rest x) fun _ => extreme_moves op rest best

section Keyed

variable {key key' : Option Callback} (hkey : Option.Rel (KeysMove ρ) key key')

include hkey

theorem keyed_moves (vs : List Value) :
    Moves ρ (Entries.moved ρ) (keyed key vs) (keyed key' (vs.map (Value.moved ρ))) := by
  cases hkey with
  | none =>
    refine .pure ?_
    simp only [Entries.moved, List.map_map, Function.comp_def]
  | some hf => exact .mapM fun v => (hf v).bind fun w => .pure rfl

theorem sortedItems_moves (down : Bool) (vs : List Value) :
    Moves ρ (List.map (Value.moved ρ)) (sortedItems key down vs) (sortedItems key' down (vs.map (Value.moved ρ))) := by
  refine (keyed_moves hkey vs).bind fun pairs => ?_
  have sort (pairs : List (Value × Value)) : Moves ρ (Entries.moved ρ)
      (read fun s => Store.sortBy (fun x y => s.ordered .lt x.1 y.1) pairs)
      (read fun s => Store.sortBy (fun x y => s.ordered .lt x.1 y.1) (Entries.moved ρ pairs)) :=
    read_moves fun s s' hs => Store.sortBy_map (fun x y => Store.ordered_moved hs .lt x.1 y.1) pairs
  have seconds (pairs : Entries) : (pairs.moved ρ).map Prod.snd = (pairs.map Prod.snd).map (Value.moved ρ) := by
    simp only [Entries.moved, List.map_map, Function.comp_def]
  have reversed (pairs : Entries) : (pairs.moved ρ).reverse = Entries.moved ρ pairs.reverse := List.map_reverse.symm
  refine .ite (fun _ => ?_) fun _ => ?_
  · rw [reversed]
    refine (sort _).bind fun sorted => .pure ?_
    rw [reversed, seconds]
  · exact (sort pairs).bind fun sorted => .pure (seconds sorted)

theorem extremeOf_moves (op : OrderOp) (args : Arguments) :
    Moves ρ (Value.moved ρ) (extremeOf op key args) (extremeOf op key' (args.moved ρ)) := by
  have named := Arguments.any_named_moved (ρ := ρ) args fun k => k != "key" && k != "default"
  have given := field?_moved (ρ := ρ) args.named "default"
  obtain ⟨default, hdefault⟩ : ∃ d, (args.named.find? fun a => a.1 == "default").map Prod.snd = d := ⟨_, rfl⟩
  rw [hdefault] at given
  unfold extremeOf
  rw [named]
  refine .refuse fun _ => ?_
  dsimp only [Arguments.moved]
  rw [hdefault, given]
  rcases args.positional with _ | ⟨v, _ | ⟨w, vs⟩⟩
  case nil => exact .wrongType_bind
  case' cons.nil => refine (items_moves v).bind fun vs => (keyed_moves hkey vs).bind fun pairs => ?_
  case' cons.cons =>
    rw [Option.isSome_map]
    refine .ite (fun _ => .wrongType_bind) fun _ => (keyed_moves hkey (v :: w :: vs)).bind fun pairs => ?_
  -- one argument is searched as several are
  all_goals
    rcases pairs with _ | ⟨x, rest⟩
    · cases default with
      | none => exact .throw
      | some v => exact .pure rfl
    · exact extreme_moves op rest x

end Keyed

theorem sumOf_moves (args : Arguments) : Moves ρ (Value.moved ρ) (sumOf args) (sumOf (args.moved ρ)) := by
  unfold sumOf
  refine (args.assign_moves _).bind fun us => ?_
  rcases us with _ | ⟨_ | v, _ | ⟨start, _ | _⟩⟩
  case cons.some.cons.nil =>
    have total (first : Value) : Moves ρ (Value.moved ρ) (do (← items v).foldlM (binary .add) first)
        (do (← items (v.moved ρ)).foldlM (binary .add) (first.moved ρ)) :=
      (items_moves v).bind fun vs => .foldlM (binary_moves .add) first
    cases start with
    | none => exact total (.int 0)
    | some first =>
      cases first
      case text t => exact .wrongType_bind
      case bytes bs => exact .wrongType_bind
      all_goals exact total _
  all_goals exact .wrongType

theorem absoluteOf_moves (v : Value) : Moves ρ (Value.moved ρ) (absoluteOf v) (absoluteOf (v.moved ρ)) := by
  unfold absoluteOf
  rw [Value.numeric?_moved]
  split
  · exact .pure rfl
  · exact .pure rfl
  · exact .pure rfl
  · exact .wrongType

theorem roundOf_moves (args : Arguments) : Moves ρ (Value.moved ρ) (roundOf args) (roundOf (args.moved ρ)) := by
  unfold roundOf
  refine (args.assign_moves _).bind fun us => ?_
  rcases us with _ | ⟨_ | v, _ | ⟨places, _ | _⟩⟩
  case cons.some.cons.nil =>
    simp -zeta only [List.map_cons, List.map_nil, Option.map_some]

    extract_lets next next'

    have hnext (places : Option Int) : Moves ρ (Value.moved ρ) (next places) (next' places) := by
      cases v
      case float x =>
        cases places with
        | none =>
          unfold next next'
          dsimp only [Value.moved]
          cases Number.roundToInt? x with
          | none => exact .throw
          | some n => exact .pure rfl
        | some n => exact .ite (fun _ => .throw) fun _ => .pure rfl
      case int n =>
        cases places with
        | none => exact .pure rfl
        | some p => exact .ite (fun _ => .pure rfl) fun _ => .ite (fun _ => .pure rfl) fun _ => .pure rfl
      case bool b =>
        cases places with
        | none => exact .pure rfl
        | some p => exact .ite (fun _ => .pure rfl) fun _ => .ite (fun _ => .pure rfl) fun _ => .pure rfl
      all_goals exact .wrongType
    cases places with
    | none => exact hnext none
    | some p =>
      cases p
      case none => exact hnext none
      all_goals exact (expectInt_moves _).bindPlain fun n => hnext (some n)
  all_goals exact .wrongType

/-! ## Builtin types -/

theorem makeText_moves (args : Arguments) : Moves ρ (Value.moved ρ) (makeText args) (makeText (args.moved ρ)) := by
  have decoded (bs : List UInt8) (named : List (String × Value)) : Moves ρ (Value.moved ρ)
      (callBytes bs "decode" ⟨[], named⟩) (callBytes bs "decode" ⟨[], movedFields ρ named⟩) :=
    callBytes_moves bs "decode" ⟨[], named⟩
  unfold makeText
  refine (args.assign_moves _).bind fun us => ?_
  rcases us with _ | ⟨_ | v, _ | ⟨_ | encoding, _ | ⟨_ | errors, _ | _⟩⟩⟩
  case cons.some.cons.none.cons.none.nil => exact (text_moves v).bindPlain fun _ => .pure rfl
  case cons.some.cons.none.cons.some.nil =>
    cases v
    case bytes bs => exact decoded bs [("errors", errors)]
    all_goals exact .wrongType
  case cons.some.cons.some.cons.none.nil =>
    cases v
    case bytes bs => exact decoded bs [("encoding", encoding)]
    all_goals exact .wrongType
  case cons.some.cons.some.cons.some.nil =>
    cases v
    case bytes bs => exact decoded bs [("encoding", encoding), ("errors", errors)]
    all_goals exact .wrongType
  case cons.none.cons.none.cons.none.nil => exact .pure rfl
  case cons.none.cons.none.cons.some.nil => exact .pure rfl
  case cons.none.cons.some.cons.none.nil => exact .pure rfl
  case cons.none.cons.some.cons.some.nil => exact .pure rfl
  all_goals exact .wrongType

/-- What is read off a text. -/
theorem readsInt_moves (r : Except Fault Int) :
    Moves ρ (Value.moved ρ) (do return Value.int (← read fun _ => r)) (do return Value.int (← read fun _ => r)) :=
  (pure_moves r).bindPlain fun _ => .pure rfl

theorem makeInt_moves (args : Arguments) : Moves ρ (Value.moved ρ) (makeInt args) (makeInt (args.moved ρ)) := by
  unfold makeInt
  refine (args.assign_moves _).bind fun us => ?_
  rcases us with _ | ⟨_ | v, _ | ⟨_ | base, _ | _⟩⟩
  case cons.none.cons.none.nil => exact .pure rfl
  case cons.some.cons.none.nil =>
    cases v
    case text t => exact readsInt_moves _
    case bytes bs => exact readsInt_moves _
    case float x =>
      simp only [List.map_cons, List.map_nil, Option.map_some, Option.map_none, Value.moved]
      cases Number.truncate? x with
      | none => exact .throw
      | some n => exact .pure rfl
    all_goals exact (expectInt_moves _).bindPlain fun _ => .pure rfl
  case cons.some.cons.some.nil =>
    refine (expectInt_moves base).bindPlain fun base => .guard fun _ => ?_
    cases v
    case text t => exact readsInt_moves _
    case bytes bs => exact readsInt_moves _
    all_goals exact .wrongType_bind
  all_goals exact .wrongType

theorem makeFloat_moves (args : Arguments) : Moves ρ (Value.moved ρ) (makeFloat args) (makeFloat (args.moved ρ)) := by
  have reads (r : Except Fault Float) : Moves ρ (Value.moved ρ) (do return Value.float (← read fun _ => r))
      (do return Value.float (← read fun _ => r)) := (pure_moves r).bindPlain fun _ => .pure rfl
  unfold makeFloat
  refine (args.assign_moves _).bind fun us => ?_
  rcases us with _ | ⟨_ | v, _ | _⟩
  case cons.none.nil => exact .pure rfl
  case cons.some.nil =>
    cases v
    case text t => exact reads _
    case bytes bs => exact reads _
    case float x => exact .pure rfl
    all_goals exact (expectInt_moves _).bindPlain fun _ => reads _
  all_goals exact .wrongType

theorem makeZip_moves (args : Arguments) : Moves ρ (Value.moved ρ) (makeZip args) (makeZip (args.moved ρ)) := by
  have named := Arguments.any_named_moved (ρ := ρ) args fun k => k != "strict"
  have together (strict : Bool) : Moves ρ (Value.moved ρ)
      (do return Value.cursor (← newCursor (.zip (← args.positional.mapM cursor) strict)))
      (do return Value.cursor (← newCursor (.zip (← (args.moved ρ).positional.mapM cursor) strict))) :=
    Moves.bind (f := List.map ρ.cursors) (.mapM cursor_moves) fun ps => started_moves rfl
  unfold makeZip
  rw [named]
  refine .refuse fun _ => ?_
  dsimp only [Arguments.moved]
  rw [find?_movedFields]
  cases args.named.find? fun a => a.1 == "strict" with
  | none => exact together false
  | some a => exact (truth_moves a.2).bindPlain together

/-! ## Functions with a key -/

section Callbacks

variable {callback callback' : Value → Callback}
  (hcallback : ∀ f : Value, KeysMove ρ (callback f) (callback' (f.moved ρ)))

include hcallback

theorem keyOf_moves (args : Arguments) :
    Option.Rel (KeysMove ρ) (keyOf callback args) (keyOf callback' (args.moved ρ)) := by
  unfold keyOf
  dsimp only [Arguments.moved]
  rw [find?_movedFields]
  cases args.named.find? fun a => a.1 == "key" with
  | none => exact .none
  | some a =>
    obtain ⟨k, f⟩ := a
    cases f
    case none => exact .none
    all_goals exact .some (hcallback _)

omit hcallback in
theorem descending_moves (args : Arguments) : Moves ρ id (descending args) (descending (args.moved ρ)) := by
  unfold descending
  dsimp only [Arguments.moved]
  rw [find?_movedFields]
  cases args.named.find? fun a => a.1 == "reverse" with
  | none => exact .pure rfl
  | some a => exact (expectInt_moves a.2).bindPlain fun _ => .pure rfl

/-- What sorts with the key and in the direction that are given. -/
theorem sortingOf_bind_moves {α β : Type} {f : α → β} (args : Arguments) {k : Option Callback × Bool → Run α}
    {k' : Option Callback × Bool → Run β}
    (hk : ∀ key key' down, Option.Rel (KeysMove ρ) key key' → Moves ρ f (k (key, down)) (k' (key', down))) :
    Moves ρ f (sortingOf callback args >>= k) (sortingOf callback' (args.moved ρ) >>= k') := by
  have named := Arguments.any_named_moved (ρ := ρ) args fun k => k != "key" && k != "reverse"
  unfold sortingOf
  rw [named]
  split
  · exact .wrongType_bind
  · simp only [bind_assoc, pure_bind]
    exact (descending_moves args).bindPlain fun down => hk _ _ down (keyOf_moves hcallback args)

theorem callBuiltin_moves (b : Builtin) (args : Arguments) :
    Moves ρ (Value.moved ρ) (callBuiltin callback b args) (callBuiltin callback' b (args.moved ρ)) := by
  unfold callBuiltin
  extract_lets one one'
  have hone : Moves ρ (Value.moved ρ) one one' := args.one_moves fun v => .pure rfl
  cases b
  case len => exact hone.bind lengthOf_moves
  case range => exact makeRange_moves args
  case enumerate =>
    refine (args.assign_moves _).bind fun us => ?_
    rcases us with _ | ⟨_ | v, _ | ⟨start, _ | _⟩⟩
    case cons.some.cons.nil =>
      refine optional_moves expectInt_moves start fun n => ?_
      exact (cursor_moves v).bind fun p => started_moves rfl
    all_goals exact .wrongType
  case sorted =>
    obtain ⟨positional, named⟩ := args
    rcases positional with _ | ⟨v, _ | _⟩
    case cons.nil =>
      refine (items_moves v).bind fun vs => ?_
      refine sortingOf_bind_moves hcallback ⟨[v], named⟩ fun key key' down hkey => ?_
      exact (sortedItems_moves hkey down vs).bind fun us => newList_moves rfl
    all_goals exact .wrongType
  case reversed => exact hone.bind makeReversed_moves
  case zip => exact makeZip_moves args
  case min => exact extremeOf_moves (keyOf_moves hcallback args) .lt args
  case max => exact extremeOf_moves (keyOf_moves hcallback args) .gt args
  case sum => exact sumOf_moves args
  case abs => exact hone.bind absoluteOf_moves
  case round => exact roundOf_moves args
  case str => exact makeText_moves args
  case int => exact makeInt_moves args
  case float => exact makeFloat_moves args
  case bool =>
    refine (args.assign_moves _).bind fun us => ?_
    rcases us with _ | ⟨_ | v, _ | _⟩
    case cons.some.nil => exact (truth_moves v).bindPlain fun _ => .pure rfl
    all_goals exact .pure rfl
  case list =>
    refine (args.assign_moves _).bind fun us => ?_
    rcases us with _ | ⟨_ | v, _ | _⟩
    case cons.some.nil => exact (items_moves v).bind fun vs => newList_moves rfl
    all_goals exact newList_moves rfl
  case dict => exact (entriesOfArguments_moves args).bind fun es => newDict_moves rfl

/-! ## Methods -/

theorem callMethod_moves (v : Value) (name : String) (args : Arguments) :
    Moves ρ (Value.moved ρ) (callMethod callback v name args)
      (callMethod callback' (v.moved ρ) name (args.moved ρ)) := by
  cases v
  case text t => exact callText_moves t name args
  case bytes bs => exact callBytes_moves bs name args
  case bool b => exact callInt_moves _ name args
  case int n => exact callInt_moves n name args
  case float x => exact callFloat_moves x name args
  case complex re im => exact (args.exactly_moves 0).discard.seq (.pure rfl)
  case date d => exact callMoment_moves d.midnight true name args
  case moment m => exact callMoment_moves m false name args
  case tuple vs =>
    rw [Value.moved, Value.movedAll_eq_map]
    exact callTuple_moves vs name args
  case list p =>
    refine .ite (fun _ => ?_) fun _ => callList_moves p name args
    have isEmpty : (args.moved ρ).positional.isEmpty = args.positional.isEmpty := List.isEmpty_map
    rw [isEmpty]
    refine .refuse fun _ => sortingOf_bind_moves hcallback args fun key key' down hkey => ?_
    refine (list_moves p).bind fun vs => (sortedItems_moves hkey down vs).bind fun us => ?_
    exact (setList_moves rfl p).seq (.pure rfl)
  case dict p => exact callDict_moves p name args
  case set p => exact callSet_moves p name args
  case range a b c => exact callRange_moves (.range a b c) name args
  case view kind p => exact callView_moves kind p name args
  case legend p => exact callLegend_moves p name args
  case metadata p => exact callMetadata_moves p name args
  all_goals exact .wrongType

omit hcallback in
theorem isInstance_moves (v : Value) (type : String) :
    Moves ρ id (isInstance v type) (isInstance (v.moved ρ) type) := by
  have named (v : Value) : Moves ρ id (do return v.typeName (← store) == type)
      (do return (v.moved ρ).typeName (← store) == type) := by
    refine store_bind_moves fun s s' hs => ?_
    rw [Store.typeName_moved hs]
    exact .pure rfl
  cases v
  case bool b =>
    unfold isInstance
    dsimp only [Value.moved]
    split
    · exact .pure rfl
    · exact named (.bool b)
  all_goals exact named _

theorem callTypeMethod_moves (type name : String) (args : Arguments) :
    Moves ρ (Value.moved ρ) (callTypeMethod callback type name args)
      (callTypeMethod callback' type name (args.moved ρ)) := by
  obtain ⟨positional, named⟩ := args
  refine .ite (fun _ => TextMethod.table_moves _) fun _ => ?_
  cases positional with
  | nil => exact .wrongType
  | cons v rest =>
    refine (isInstance_moves v type).bindPlain fun _ => .ite (fun _ => ?_) fun _ => .wrongType
    exact callMethod_moves hcallback v name ⟨rest, named⟩

omit hcallback in
theorem callClassMethod_moves (type name : String) (args : Arguments) :
    Moves ρ (Value.moved ρ) (callClassMethod type name args) (callClassMethod type name (args.moved ρ)) := by
  unfold callClassMethod
  split
  · exact fromKeys_moves args
  · exact .wrongType

section Host

variable {host host' : Host} (hhost : host.Moves ρ host')

include hhost

omit hcallback in
theorem callHelper_moves (h : Helper) (args : Arguments) :
    Moves ρ (Value.moved ρ) (callHelper host h args) (callHelper host' h (args.moved ρ)) := by
  cases h
  case includePartial =>
    refine (args.assign_moves _).bind fun us => ?_
    rcases us with _ | ⟨_ | path, _ | ⟨context, _ | _⟩⟩
    case cons.some.cons.nil =>
      cases context with
      | none => exact hhost.renderPartial path .none
      | some context => exact hhost.renderPartial path context
    all_goals exact .wrongType
  case entitle =>
    refine (args.assign_moves _).bind fun us => ?_
    rcases us with _ | ⟨_ | title, _ | ⟨_ | context, _ | _⟩⟩
    case cons.some.cons.some.nil => exact entitle_moves title context
    all_goals exact .wrongType
  case active | act =>
    refine (args.assign_moves _).bind fun us => ?_
    rcases us with _ | ⟨_ | directory, _ | ⟨_ | context, _ | _⟩⟩
    case cons.some.cons.some.nil =>
      dsimp only [movedOptions, List.map_cons, List.map_nil, Option.map_some]
      rw [hhost.cwd]
      exact (isActive_moves _ directory context).bindPlain fun _ => .pure rfl
    all_goals exact .wrongType

theorem callWith_moves (f : Value) (args : Arguments) :
    Moves ρ (Value.moved ρ) (callWith callback host f args)
      (callWith callback' host' (f.moved ρ) (args.moved ρ)) := by
  cases f
  case builtin b => exact callBuiltin_moves hcallback b args
  case helper h => exact callHelper_moves hhost h args
  case method v name => exact callMethod_moves hcallback v name args
  case typeMethod type name => exact callTypeMethod_moves hcallback type name args
  case classMethod type name => exact callClassMethod_moves type name args
  case foreignType t => exact .wrongType
  all_goals exact typeFault_moves .notCallable _

omit hcallback in
theorem callKey_moves (f : Value) : KeysMove ρ (callKey host f) (callKey host' (f.moved ρ)) := by
  intro v
  have none : ∀ f : Value, KeysMove ρ ((fun _ _ => wrongType : Value → Callback) f)
      ((fun _ _ => wrongType : Value → Callback) (f.moved ρ)) := fun _ _ => .wrongType
  exact (record_moves _ _).seq (callWith_moves none hhost f ⟨[v], []⟩)

omit hcallback in
theorem call_moves (f : Value) (args : Arguments) :
    Moves ρ (Value.moved ρ) (call host f args) (call host' (f.moved ρ) (args.moved ρ)) :=
  (record_moves _ _).seq (callWith_moves (callKey_moves hhost) hhost f args)

end Host

end Callbacks

theorem guardCall_moves (f : Value) : Moves ρ id (guardCall f) (guardCall (f.moved ρ)) := by
  have other (f : Value) : Moves ρ id
      (do if f.isCallable then return () else throw (.notCallable (f.typeName (← store))))
      (do if (f.moved ρ).isCallable then return () else throw (.notCallable ((f.moved ρ).typeName (← store)))) := by
    rw [Value.isCallable_moved]
    exact .ite (fun _ => .pure rfl) fun _ => typeFault_moves .notCallable f
  cases f
  case classMethod type name => exact .throw
  case foreignType name => exact .throw
  all_goals exact other _

end Run

end NestedSite
