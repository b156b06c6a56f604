import NestedSite.Method.Attribute
import NestedSite.Proofs.Method.Container
import NestedSite.Proofs.Method.Scalar

/-!
# Methods of legends and metadata, and attributes

The methods of legends and metadata give what these hold, or copies of it (`Run.callLegend_confined`,
`Run.callMetadata_confined`). An attribute of a value of a region lies in the region (`Run.readAttribute_confined`); of
a mapping it is an entry, or one of the methods that mappings may be held with.
-/

namespace NestedSite

open Region (AllowsReads AllowsEdits)

variable {r : Region} {R : World → World → Prop} {args : Arguments}

/-- A text that may be missing, as a value. -/
theorem textOrNone_in {t : Option String} : ((t.map Value.text).getD .none).In r := by
  cases t with
  | none => exact Value.in_none
  | some t => exact Value.in_text

theorem Legend.In.givenFields {l : Legend} (h : l.In r) : FieldsIn r l.givenFields := by
  intro f hf
  simp only [Legend.givenFields, List.mem_cons, List.mem_append] at hf
  rcases hf with (rfl | hf) | hf
  · exact Value.in_text
  · split at hf
    · rw [List.mem_singleton.1 hf]
      exact textOrNone_in
    · exact absurd hf List.not_mem_nil
  · exact h.extras f hf

namespace Run

theorem newRecord_confined [AllowsReads r R] {fields : List (String × Value)} (h : FieldsIn r fields) :
    Confined r R (newRecord fields) (·.In r) :=
  newDict_in (Entries.in_nil.merge h.entries)

/-! ## Copies -/

/-- Named values, each replaced by what a computation makes of it. -/
theorem mapFields_confined [AllowsReads r R] {f : Value → Run Value}
    (hf : ∀ v, v.In r → Confined r R (f v) (·.In r)) {fields : List (String × Value)} (h : FieldsIn r fields) :
    Confined r R (fields.mapM fun e => return (e.1, ← f e.2)) (FieldsIn r) :=
  Confined.mapM (Q := fun e : String × Value => e.2.In r) fun e he => (hf _ (h e he)).bind fun _ hv => .pure hv

theorem dumpedTo_confined [AllowsReads r R] :
    ∀ (n : Nat) (inside : List Value) {v : Value}, v.In r → Confined r R (dumpedTo n inside v) (·.In r)
  | 0, _, _, _ => .throw
  | n + 1, inside, v, h => by
    have deeper : ∀ u, u.In r → Confined r R (dumpedTo n (v :: inside) u) (·.In r) :=
      fun u hu => dumpedTo_confined n _ hu
    unfold dumpedTo
    refine .guard fun _ => ?_
    split
    · exact (list_confined h).bind fun _ hvs => (Confined.mapM fun v hv => deeper v (hvs v hv)).bind fun _ hus =>
        newList_confined hus
    · refine (Confined.mapM fun v hv => dumpedTo_confined n _ (Value.in_tuple.1 h v hv)).bind fun _ hus => ?_
      exact .pure (Value.in_tuple.2 hus)
    · exact (set_confined h).bind fun _ hvs => newSet_confined hvs
    · refine (dict_confined h).bind fun es hes => ?_
      refine (Confined.mapM (Q := fun e : Value × Value => e.1.In r ∧ e.2.In r) fun e he => ?_).bind fun _ hes =>
        newDict_in hes
      exact (deeper _ (hes e he).2).bind fun _ hv => .pure ⟨(hes e he).1, hv⟩
    · exact store_confined.bind fun _ hs => (mapFields_confined deeper (hs.legends _ h).fields).bind fun _ hfs =>
        newRecord_confined hfs
    · exact store_confined.bind fun _ hs => (mapFields_confined deeper (hs.metadata _ h).fields).bind fun _ hfs =>
        newRecord_confined hfs
    · exact .pure h

theorem dumped_confined [AllowsReads r R] {v : Value} (h : v.In r) : Confined r R (dumped v) (·.In r) :=
  dumpedTo_confined depthLimit [] h

theorem legendFields_confined [AllowsReads r R] {l : Legend} (h : l.In r) :
    Confined r R (legendFields l) (·.In r) :=
  (Confined.forIn fun ⟨_, _⟩ hf => (dumped_confined (h.extras _ hf)).discard.seq (.pure rfl)).seq
    (newRecord_confined h.givenFields)

/-! ## Methods -/

theorem metadataGroup_confined [AllowsReads r R] {m : Metadata} (h : m.In r) {name : Value} (hn : name.In r) :
    Confined r R (metadataGroup m name) (·.In r) := by
  refine (Value.key_confined hn).bind fun k _ => ?_
  split
  · exact .pure textOrNone_in
  · exact .pure h.files
  · exact .pure h.extras.getD
  · exact .pure Value.in_none

theorem legendNamed_confined [AllowsReads r R] {m : Metadata} (h : r.lists m.files) {name : Value} :
    Confined r R (legendNamed m name) (·.In r) :=
  (list_confined h).bind fun vs hvs => go vs hvs
where
  go : ∀ vs : List Value, (∀ v ∈ vs, v.In r) → Confined r R (legendNamed.go name vs) (·.In r)
    | [], _ => .pure Value.in_none
    | v :: vs, h => by
      obtain ⟨hv, hvs⟩ := List.forall_mem_cons.1 h
      unfold legendNamed.go
      split
      · contradiction
      · rename_i heq
        cases heq
        exact (gives_confined fun _ => .any _).bind fun _ _ => .ite (fun _ => .pure hv) fun _ => go vs hvs
      · exact .throw

theorem callLegend_confined [AllowsReads r R] (h : args.In r) {place : Nat} (hp : r.legends place) {name : String} :
    Confined r R (callLegend place name args) (·.In r) := by
  refine store_confined.bind fun s hs => ?_
  dsimp only
  split
  · exact (h.exactly 0).discard.seq (legendFields_confined (hs.legends place hp))
  · exact dumped_confined hp
  · exact dumped_confined hp
  · exact newLegend_confined (hs.legends place hp)
  · exact newLegend_confined (hs.legends place hp)
  · exact .wrongType

theorem callMetadata_confined [AllowsReads r R] (h : args.In r) {place : Nat} (hp : r.metadata place)
    {name : String} : Confined r R (callMetadata place name args) (·.In r) := by
  refine store_confined.bind fun s hs => ?_
  dsimp only
  split
  · refine (h.assign _).bind fun us hus => ?_
    split
    · exact metadataGroup_confined (hs.metadata place hp) (hus _ List.mem_cons_self _ rfl)
    · exact .wrongType
  · refine (h.assign _).bind fun us _ => ?_
    split
    · exact legendNamed_confined (hs.metadata place hp).files
    · exact .wrongType
  · exact dumped_confined hp
  · exact dumped_confined hp
  · exact newMetadata_confined (hs.metadata place hp)
  · exact newMetadata_confined (hs.metadata place hp)
  · exact .wrongType

end Run

/-! ## Attributes -/

theorem typeAttribute?_in {type name : String} : ∀ v ∈ typeAttribute? type name, v.In r := by
  intro v hv
  unfold typeAttribute? at hv
  extract_lets among at hv
  have hamong : ∀ methods fields classMethods, ∀ v ∈ among methods fields classMethods, v.In r := by
    intro methods fields classMethods v hv
    unfold among at hv
    split at hv
    · cases hv; exact Value.in_typeMethod
    · split at hv
      · cases hv; exact Value.in_typeField
      · split at hv
        · cases hv; exact Value.in_classMethod
        · cases hv
  split at hv
  · exact hamong _ _ _ v hv
  · exact hamong _ _ _ v hv
  · exact hamong _ _ _ v hv
  · exact hamong _ _ _ v hv
  · exact hamong _ _ _ v hv
  · exact hamong _ _ _ v hv
  · exact hamong _ _ _ v hv
  · exact hamong _ _ _ v hv
  · exact hamong _ _ _ v hv
  · cases hv

theorem Legend.attribute?_in {place : Nat} {l : Legend} (hp : r.legends place) (hl : l.In r) {name : String} :
    ∀ v ∈ l.attribute? place name, v.In r := by
  intro v hv
  unfold Legend.attribute? at hv
  split at hv
  · cases hv; exact Value.in_text
  · split at hv
    · cases hv; exact textOrNone_in
    · split at hv
      · cases hv; exact Value.in_classMethod
      · split at hv
        · cases hv; exact ⟨hp, nofun⟩
        · exact hl.extras.find? hv

theorem Metadata.attribute?_in {place : Nat} {m : Metadata} (hp : r.metadata place) (hm : m.In r) {name : String} :
    ∀ v ∈ m.attribute? place name, v.In r := by
  intro v hv
  unfold Metadata.attribute? at hv
  split at hv
  · cases hv; exact textOrNone_in
  · split at hv
    · cases hv; exact hm.files
    · split at hv
      · cases hv; exact Value.in_classMethod
      · split at hv
        · cases hv; exact ⟨hp, nofun⟩
        · exact hm.extras.find? hv

namespace Run

theorem ownAttribute?_confined [AllowsReads r R] {v : Value} (h : v.In r) (hv : v.isMapping = false) {name : String} :
    Confined r R (ownAttribute? v name) fun u => ∀ w ∈ u, w.In r := by
  unfold ownAttribute?
  extract_lets among named classMethod
  -- a method of the value, or one of the fields of its type
  have hamong : ∀ methods fields, (∀ f, ∀ w ∈ fields f, w.In r) → ∀ w ∈ among methods fields, w.In r := by
    intro methods fields hf w hw
    unfold among at hw
    split at hw
    · cases hw; exact ⟨h, fun hm => absurd hm (by simp [hv])⟩
    · exact hf name w hw
  have hplain : ∀ methods, ∀ w ∈ (among methods fun _ => none), w.In r := fun methods =>
    hamong methods (fun _ => none) fun _ _ hw => nomatch hw
  have hnumber : ∀ (names types : List String) (type : String) (field : String → Value), (∀ f, (field f).In r) →
      ∀ f, ∀ w ∈ (named names field f).orElse fun _ => classMethod type types f, w.In r := by
    intro names types type field hf f w hw
    unfold named classMethod at hw
    split at hw
    · cases hw; exact hf f
    · split at hw
      · cases hw; exact Value.in_classMethod
      · cases hw
  clear_value among named classMethod
  split
  · refine .pure fun w hw => ?_
    split at hw
    · cases hw; exact Value.in_typeMethod
    · exact hplain _ w hw
  · exact .pure (hplain _)
  · exact .pure (hamong _ _ (hnumber _ _ _ _ fun _ => intField_in))
  · exact .pure (hamong _ _ (hnumber _ _ _ _ fun _ => intField_in))
  · exact .pure (hamong _ _ (hnumber _ _ _ _ fun _ => floatField_in))
  · refine .pure (hamong _ _ fun f w hw => ?_)
    split at hw
    · cases hw; exact Value.in_float
    · cases hw; exact Value.in_float
    · cases hw
  · exact .pure (hamong _ _ fun _ => dateField?_in)
  · exact .pure (hamong _ _ fun _ => momentField?_in)
  · exact .pure (hplain _)
  · exact .pure (hplain _)
  · exact .pure (hplain _)
  · refine .pure (hamong _ _ fun f w hw => ?_)
    split at hw
    · cases hw; exact Value.in_int
    · cases hw; exact Value.in_int
    · cases hw; exact Value.in_int
    · cases hw
  · exact .pure (hplain _)
  · refine store_confined.bind fun s hs => ?_
    have hl := hs.legends _ h
    refine .ite (fun _ => ?_) fun _ => .pure (Legend.attribute?_in h hl)
    exact (newRecord_confined hl.extras).map fun _ hv w hw => by cases hw; exact hv
  · refine store_confined.bind fun s hs => ?_
    have hm := hs.metadata _ h
    refine .ite (fun _ => ?_) fun _ => .pure (Metadata.attribute?_in h hm)
    exact (newRecord_confined hm.extras).map fun _ hv w hw => by cases hw; exact hv
  · refine .pure fun w hw => ?_
    split at hw
    · exact typeAttribute?_in w hw
    · cases hw
  · exact .pure typeAttribute?_in
  · exact .pure fun _ => nofun

/-- An attribute may be read where the relation lets the reading be recorded. -/
theorem readAttribute_confined [AllowsReads r R] {v : Value} (h : v.In r) {name : String}
    (hR : Confined r R (record (.read v name)) fun _ => True) : Confined r R (readAttribute v name) (·.In r) := by
  unfold readAttribute
  refine hR.seq ?_
  split
  · exact .throw
  · refine (dict_confined h).bind fun es hes => ?_
    split
    · exact .pure (hes.find? ‹_›)
    · refine .pure ?_
      split
      · rename_i hsafe
        exact ⟨h, fun _ => r.bound_safe name (List.contains_iff_mem.1 hsafe)⟩
      · exact Value.in_none
  · rename_i hnone hdict
    have hv : v.isMapping = false := by
      cases v with
      | dict p => exact absurd rfl (hdict p)
      | _ => rfl
    refine (ownAttribute?_confined h hv).bind fun u hu => .pure ?_
    cases u with
    | none => exact Value.in_none
    | some w => exact hu w rfl

end Run

end NestedSite
