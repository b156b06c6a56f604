import NestedSite.Method.Record
import NestedSite.Method.Text
import NestedSite.Method.Number
import NestedSite.Proofs.Store.Operators

/-!
# Methods of texts, numbers, days and moments

The methods of simple values read their arguments and give values of the region (`Run.callText_confined`,
`Run.callBytes_confined`, `Run.callInt_confined`, `Run.callFloat_confined`, `Run.callMoment_confined`).
-/

namespace NestedSite

open Region (AllowsReads AllowsEdits)
open Text

variable {r : Region} {R : World → World → Prop} {args : Arguments}

namespace TextMethod

theorem boundOf_confined [AllowsReads r R] : ∀ {v : Option Value}, Confined r R (boundOf v) fun _ => True
  | none => .pure trivial
  | some _ => Run.bound?_confined

theorem textOf?_confined [AllowsReads r R] {v : Option Value} : Confined r R (textOf? v) fun _ => True := by
  unfold textOf?
  split
  · exact .pure trivial
  · exact .pure trivial
  · exact .pure trivial
  · exact .wrongType

theorem limitOf_confined [AllowsReads r R] : ∀ {v : Option Value}, Confined r R (limitOf v) fun _ => True
  | none => .pure trivial
  | some _ => Run.expectSize_confined.bind fun _ _ => .pure trivial

theorem find_confined [AllowsReads r R] (h : args.In r) {cs : List Char} {fromEnd : Bool} :
    Confined r R (find cs args fromEnd) fun _ => True := by
  unfold find
  refine (h.assign _).bind fun us _ => ?_
  split
  · refine Run.expectText_confined.bind fun _ _ => ?_
    refine boundOf_confined.bind fun _ _ => boundOf_confined.bind fun _ _ => ?_
    split
    · exact .pure trivial
    · exact .pure trivial
  · exact .wrongType

theorem anyOf_confined [AllowsReads r R] {has : String → Bool} {vs : List Value} :
    Confined r R (borders.anyOf has vs) (·.In r) := by
  induction vs with
  | nil => exact .pure Value.in_bool
  | cons v vs ih =>
    unfold borders.anyOf
    split
    · contradiction
    · rename_i heq
      cases heq
      exact .ite (fun _ => .pure Value.in_bool) fun _ => ih
    · exact .wrongType

theorem borders_confined [AllowsReads r R] (h : args.In r) {cs : List Char} {atEnd : Bool} :
    Confined r R (borders cs args atEnd) (·.In r) := by
  unfold borders
  refine (h.assign _).bind fun us _ => ?_
  split
  · refine boundOf_confined.bind fun _ _ => boundOf_confined.bind fun _ _ => ?_
    dsimp only
    split
    · exact .pure Value.in_bool
    · exact anyOf_confined
    · exact .wrongType
  · exact .wrongType

theorem checkSize_confined [AllowsReads r R] {n : Nat} : Confined r R (Run.read fun _ => checkSize n) fun _ => True :=
  Run.gives_confined fun _ => .any _

theorem justify_confined [AllowsReads r R] (h : args.In r) {cs : List Char} {leftOf : Nat → Nat → Nat} :
    Confined r R (justify cs args leftOf) (·.In r) := by
  unfold justify
  refine (h.assign _).bind fun us _ => ?_
  split
  · refine Run.expectSize_confined.bind fun _ _ => ?_
    extract_lets missing left next
    have hnext : ∀ fill, Confined r R (next fill) (·.In r) := fun _ =>
      checkSize_confined.bind fun _ _ => .pure Value.in_text
    split
    · exact hnext _
    · split
      · exact hnext _
      · exact .wrongType_bind
    · exact .wrongType_bind
  · exact .wrongType

theorem stripped_confined [AllowsReads r R] (h : args.In r) {cs : List Char}
    {cut : (Char → Bool) → List Char → List Char} : Confined r R (stripped cs args cut) (·.In r) := by
  unfold stripped
  refine (h.assign _).bind fun us _ => ?_
  split
  · refine textOf?_confined.bind fun t _ => ?_
    split
    · exact .pure Value.in_text
    · exact .pure Value.in_text
  · exact .wrongType

theorem cuts_confined [AllowsReads r R] (h : args.In r) {cs : List Char} {fromEnd : Bool} :
    Confined r R (cuts cs args fromEnd) (·.In r) := by
  unfold cuts
  refine (h.assign _).bind fun us _ => ?_
  split
  · refine textOf?_confined.bind fun t _ => limitOf_confined.bind fun _ _ => ?_
    extract_lets next
    have hnext : ∀ pieces, Confined r R (next pieces) (·.In r) := fun _ =>
      Run.newList_confined (in_of_mem_map fun _ => Value.in_text)
    split
    · exact hnext _
    · exact .throw_bind
    · exact hnext _
  · exact .wrongType

theorem parted_confined [AllowsReads r R] (h : args.In r) {cs : List Char} {fromEnd : Bool} :
    Confined r R (parted cs args fromEnd) (·.In r) := by
  have triple : ∀ a b c : List Char, (Value.tuple ([a, b, c].map fun cs => .text (.ofList cs))).In r :=
    fun a b c => Value.in_tuple.2 (in_of_mem_map fun _ => Value.in_text)
  unfold parted
  refine (h.exactly 1).bind fun vs _ => ?_
  split
  · refine .guard fun _ => ?_
    dsimp only
    split
    · exact .pure (triple _ _ _)
    · refine .pure ?_
      split
      · exact triple _ _ _
      · exact triple _ _ _
  · exact .wrongType

theorem joined_confined [AllowsReads r R] {sep : List Char} {vs : List Value} :
    Confined r R (joined sep vs) fun _ => True := by
  induction vs with
  | nil => exact .pure trivial
  | cons v vs ih =>
    unfold joined
    split
    · contradiction
    · exact .pure trivial
    · rename_i heq
      cases heq
      exact ih.bind fun _ _ => .pure trivial
    · exact .wrongType

theorem mapped_confined [AllowsReads r R] {v : Value} (h : v.In r) :
    ∀ {cs : List Char}, Confined r R (mapped v cs) fun _ => True
  | [] => .pure trivial
  | c :: cs => by
    unfold mapped
    refine Confined.bind (Q := fun _ => True) ?_ fun image _ => ?_
    · refine Confined.tryCatch ((Run.subscript_confined h Value.in_int).map fun _ _ => trivial) fun e => ?_
      split
      · exact .pure trivial
      · exact .pure trivial
      · exact .throw
    · extract_lets next
      have hnext : ∀ written, Confined r R (next written) fun _ => True := fun _ =>
        (mapped_confined h).bind fun _ _ => .pure trivial
      split
      · exact hnext _
      · exact hnext _
      · exact hnext _
      · split
        · exact hnext _
        · exact .throw_bind
        · exact .wrongType_bind

theorem merge_nil_in {es : Entries} (h : es.In r) : (Entries.merge [] es).In r := Entries.in_nil.merge h

theorem table_confined [AllowsReads r R] (h : args.In r) : Confined r R (table args) (·.In r) := by
  unfold table
  refine (h.assign _).bind fun us hus => ?_
  dsimp only
  split
  · rename_i p
    have hp : r.dicts p := hus _ List.mem_cons_self _ rfl
    refine (Run.dict_confined hp).bind fun es hes => ?_
    refine Confined.bind (Q := fun es => Entries.In r es) ?_ fun es hes => Run.newDict_in (merge_nil_in hes)
    refine Confined.mapM fun e he => ?_
    refine Confined.bind (Q := (·.In r)) ?_ fun k hk => .pure ⟨hk, (hes e he).2⟩
    split
    · split
      · exact .pure Value.in_int
      · exact .throw
    · exact .pure Value.in_int
    · exact .pure Value.in_int
    · exact .wrongType
  · rename_i x y _
    have hpairs : Entries.In r
        ((x.toList.zip y.toList).map fun p => (Value.int p.1.toNat, Value.int p.2.toNat)) := fun e he => by
      obtain ⟨p, _, rfl⟩ := List.mem_map.1 he
      exact ⟨Value.in_int, Value.in_int⟩
    have made : ∀ removed : Entries, removed.In r → Confined r R (Run.newDict (Entries.merge []
        ((x.toList.zip y.toList).map (fun p => (Value.int p.1.toNat, Value.int p.2.toNat)) ++ removed))) (·.In r) :=
      fun removed hr => Run.newDict_in (merge_nil_in fun e he => (List.mem_append.1 he).elim (hpairs e) (hr e))
    refine .guard fun _ => ?_
    split
    · exact made _ Entries.in_nil
    · refine made _ fun e he => ?_
      obtain ⟨c, _, rfl⟩ := List.mem_map.1 he
      exact ⟨Value.in_int, Value.in_none⟩
    · exact .wrongType_bind
  · exact .wrongType

theorem codingNames_confined [AllowsReads r R] (h : args.In r) : Confined r R (codingNames args) fun _ => True := by
  unfold codingNames
  refine (h.assign _).bind fun us _ => ?_
  split
  · extract_lets next
    have hnext : ∀ name, Confined r R (next name) fun _ => True := by
      intro name
      dsimp only [next]
      split
      · exact .pure trivial
      · exact Run.expectText_confined.bind fun _ _ => .pure trivial
    split
    · exact hnext _
    · exact Run.expectText_confined.bind fun _ _ => hnext _
  · exact .wrongType

theorem codingNamed_confined [AllowsReads r R] {name : String} :
    Confined r R (codingNamed name) fun _ => True := by
  unfold codingNamed
  split
  · exact .pure trivial
  · exact .throw

end TextMethod

namespace Run

open TextMethod

theorem callText_confined [AllowsReads r R] (h : args.In r) {t name : String} :
    Confined r R (callText t name args) (·.In r) := by
  unfold callText
  extract_lets cs ofChars
  have hcs : ∀ cs, (ofChars cs).In r := fun _ => Value.in_text
  split
  · exact (h.exactly 0).discard.seq (.pure Value.in_bool)
  · exact (h.exactly 0).discard.seq (.pure (hcs _))
  · split
    · exact justify_confined h
    · exact justify_confined h
    · exact justify_confined h
    · refine (h.assign _).bind fun us _ => ?_
      split
      · refine expectText_confined.bind fun _ _ => boundOf_confined.bind fun _ _ => boundOf_confined.bind fun _ _ => ?_
        split
        · exact .pure Value.in_int
        · exact .pure Value.in_int
      · exact .wrongType
    · refine (codingNames_confined h).bind fun _ _ => codingNamed_confined.bind fun _ _ => ?_
      split
      · exact .pure Value.in_bytes
      · exact .throw
    · exact borders_confined h
    · exact borders_confined h
    · refine (h.assign _).bind fun us _ => ?_
      split
      · split
        · exact .pure (hcs _)
        · exact expectSize_confined.bind fun _ _ => .pure (hcs _)
      · exact .wrongType
    · exact (find_confined h).bind fun _ _ => .pure Value.in_int
    · exact (find_confined h).bind fun _ _ => .pure Value.in_int
    · refine (find_confined h).bind fun _ _ => ?_
      split
      · exact .pure Value.in_int
      · exact .throw
    · refine (find_confined h).bind fun _ _ => ?_
      split
      · exact .pure Value.in_int
      · exact .throw
    · refine (h.exactly 1).bind fun vs hvs => ?_
      split
      · exact (items_confined (hvs _ List.mem_cons_self)).bind fun _ _ => joined_confined.bind fun _ _ => .pure (hcs _)
      · exact .wrongType
    · exact stripped_confined h
    · exact stripped_confined h
    · exact stripped_confined h
    · exact table_confined h
    · exact parted_confined h
    · exact parted_confined h
    · refine (h.exactly 1).bind fun vs _ => ?_
      split
      · exact .pure (hcs _)
      · exact .wrongType
    · refine (h.exactly 1).bind fun vs _ => ?_
      split
      · exact .pure (hcs _)
      · exact .wrongType
    · refine (h.assign _).bind fun us _ => ?_
      split
      · exact expectText_confined.bind fun _ _ => expectText_confined.bind fun _ _ => limitOf_confined.bind fun _ _ =>
          .pure (hcs _)
      · exact .wrongType
    · exact cuts_confined h
    · exact cuts_confined h
    · have cut : ∀ keep, Confined r R (newList ((lines keep cs).map ofChars)) (·.In r) := fun _ =>
        newList_confined (in_of_mem_map hcs)
      refine (h.assign _).bind fun us _ => ?_
      split
      · split
        · exact cut _
        · exact expectInt_confined.bind fun _ _ => cut _
      · exact .wrongType
    · refine (h.exactly 1).bind fun vs hvs => ?_
      split
      · exact (mapped_confined (hvs _ List.mem_cons_self)).bind fun _ _ => .pure (hcs _)
      · exact .wrongType
    · refine (h.exactly 1).bind fun vs _ => ?_
      split
      · exact expectSize_confined.bind fun _ _ => checkSize_confined.bind fun _ _ => .pure (hcs _)
      · exact .wrongType
    · exact .wrongType

theorem callBytes_confined [AllowsReads r R] (h : args.In r) {bs : List UInt8} {name : String} :
    Confined r R (callBytes bs name args) (·.In r) := by
  unfold callBytes
  split
  · refine (codingNames_confined h).bind fun _ _ => .ite (fun _ => .pure Value.in_text) fun _ => ?_
    refine codingNamed_confined.bind fun _ _ => ?_
    split
    · exact .pure Value.in_text
    · exact .throw
  · exact (h.exactly 0).discard.seq (.pure Value.in_text)
  · exact .wrongType

/-! ## Numbers -/

theorem intField_in {n : Int} {name : String} : (intField n name).In r := by
  unfold intField
  split
  · exact Value.in_int
  · exact Value.in_int
  · exact Value.in_int

theorem floatField_in {x : Float} {name : String} : (floatField x name).In r := by
  unfold floatField
  split
  · exact Value.in_float
  · exact Value.in_float

theorem callFloat_confined [AllowsReads r R] (h : args.In r) {x : Float} {name : String} :
    Confined r R (callFloat x name args) (·.In r) := by
  unfold callFloat
  refine (h.exactly 0).discard.seq ?_
  split
  · split
    · exact .throw
    · exact .throw
    · exact .pure (by simp)
  · exact .pure Value.in_float
  · exact .pure Value.in_text
  · exact .pure Value.in_bool
  · exact .wrongType

theorem callInt_confined [AllowsReads r R] (h : args.In r) {n : Int} {name : String} :
    Confined r R (callInt n name args) (·.In r) := by
  unfold callInt
  split
  · refine (h.assign _).bind fun us _ => ?_
    split
    · -- the three arguments are read one after the other
      extract_lets withLength
      have hlength : ∀ length, Confined r R (withLength length) (·.In r) := by
        intro length
        unfold withLength
        extract_lets size bytes withOrder
        have horder : ∀ order, Confined r R (withOrder order) (·.In r) := by
          intro order
          unfold withOrder
          extract_lets last withSign
          have hsign : ∀ signed, Confined r R (withSign signed) (·.In r) := by
            intro signed
            unfold withSign
            refine .guard fun _ => .guard fun _ => .pure Value.in_bytes
          split
          · exact hsign _
          · exact truth_confined.bind fun _ _ => hsign _
        split
        · exact horder _
        · exact expectText_confined.bind fun _ _ => horder _
      split
      · exact hlength _
      · exact expectSize_confined.bind fun _ _ => hlength _
    · exact .wrongType
  · refine (h.exactly 0).discard.seq ?_
    split
    · exact .pure (by simp)
    · exact .pure Value.in_int
    · exact .pure Value.in_int
    · exact .pure Value.in_int
    · exact .wrongType

/-! ## Days and moments -/

theorem dateField?_in {d : Date} {name : String} : ∀ v ∈ dateField? d name, v.In r := by
  intro v hv
  unfold dateField? at hv
  split at hv
  · cases hv; exact Value.in_int
  · cases hv; exact Value.in_int
  · cases hv; exact Value.in_int
  · cases hv

theorem momentField?_in {m : Moment} {name : String} : ∀ v ∈ momentField? m name, v.In r := by
  intro v hv
  unfold momentField? at hv
  split at hv
  · cases hv; exact Value.in_int
  · cases hv; exact Value.in_int
  · cases hv; exact Value.in_int
  · cases hv; exact Value.in_int
  · cases hv; exact Value.in_int
  · exact dateField?_in v hv

theorem replaced_confined [AllowsReads r R] (h : args.In r) {names : List String} {values : List Nat} :
    Confined r R (replaced args names values) fun _ => True := by
  refine (h.assign _).bind fun us _ => (Confined.mapM (Q := fun _ => True) ?_).trivial
  rintro ⟨_ | v, old⟩ _
  · exact .pure trivial
  · exact expectInt_confined.bind fun _ _ => .ite (fun _ => .throw) fun _ => .pure trivial

theorem callMoment_confined [AllowsReads r R] (h : args.In r) {m : Moment} {whole : Bool} {name : String} :
    Confined r R (callMoment m whole name args) (·.In r) := by
  unfold callMoment
  extract_lets d next
  have hnext : ∀ sep, Confined r R (next sep) (·.In r) := fun _ =>
    .ite (fun _ => .pure Value.in_text) fun _ => .wrongType
  split
  · refine (h.assign _).bind fun us _ => ?_
    split
    · exact expectText_confined.bind fun _ _ => .pure Value.in_text
    · exact .wrongType
  · refine .ite (fun _ => ?_) fun _ => ?_
    · refine (replaced_confined h).bind fun ns _ => ?_
      split
      · exact .ite (fun _ => .pure Value.in_date) fun _ => .throw
      · exact .wrongType
    · refine (replaced_confined h).bind fun ns _ => ?_
      split
      · exact .ite (fun _ => .pure Value.in_moment) fun _ => .throw
      · exact .wrongType
  · refine .ite (fun _ => (h.exactly 0).discard.seq (.pure Value.in_text)) fun _ => ?_
    refine (h.assign _).bind fun us _ => ?_
    split
    · split
      · exact hnext "T"
      · exact expectText_confined.bind fun _ _ => hnext _
    · exact .wrongType
  · refine (h.exactly 0).discard.seq ?_
    split
    · exact .pure Value.in_int
    · exact .pure Value.in_int
    · exact .pure Value.in_int
    · exact .pure Value.in_text
    · exact .pure Value.in_date
    · split
      · exact .pure Value.in_float
      · exact .wrongType
    · refine .pure ?_
      split
      · exact Value.in_text
      · exact Value.in_none
    · exact .wrongType

end Run

end NestedSite
