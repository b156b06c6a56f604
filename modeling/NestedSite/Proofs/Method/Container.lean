import NestedSite.Method.Collection
import NestedSite.Proofs.Store.Operators

/-!
# Methods of containers

The methods of lists, tuples, mappings, sets, ranges and views keep to the region of their receiver and arguments
(`Run.callList_confined`, `Run.callDict_confined`, `Run.callSet_confined`, …). Of the methods of mappings, only those
in `alteringDictMethods` write to the receiver.
-/

namespace NestedSite

open Region (AllowsReads AllowsEdits)

variable {r : Region} {R : World → World → Prop} {args : Arguments}

/-- The methods that write to their mapping. -/
def alteringDictMethods : List String := ["clear", "pop", "popitem", "setdefault", "update"]

/-- The entries of named values. -/
theorem FieldsIn.entries {fields : List (String × Value)} (h : FieldsIn r fields) :
    Entries.In r (fields.map fun f => (.text f.1, f.2)) := by
  intro e he
  obtain ⟨f, hf, rfl⟩ := List.mem_map.1 he
  exact ⟨Value.in_text, h f hf⟩

namespace Run

theorem indexWithin_confined [AllowsReads r R] (h : args.In r) {items : List Value} :
    Confined r R (indexWithin items args) (·.In r) := by
  unfold indexWithin
  refine (h.assign _).bind fun us _ => ?_
  split
  · extract_lets clip bound
    have hbound : ∀ b, Confined r R (bound b) fun _ => True := by
      intro b
      cases b with
      | none => exact .pure trivial
      | some v => exact expectInt_confined.bind fun _ _ => .pure trivial
    refine (hbound _).bind fun _ _ => (hbound _).bind fun _ _ => ?_
    refine (gives_confined fun _ => .any _).bind fun n _ => ?_
    split
    · exact .pure Value.in_int
    · exact .throw
  · exact .wrongType

theorem callList_confined [AllowsEdits r R] (h : args.In r) {place : Nat} (hp : r.lists place) {name : String} :
    Confined r R (callList place name args) (·.In r) := by
  unfold callList
  refine (list_confined hp).bind fun items hitems => ?_
  -- the list is changed and nothing is given back
  have change : ∀ vs : List Value, (∀ v ∈ vs, v.In r) →
      Confined r R (do setList place vs; pure Value.none) (·.In r) :=
    fun vs hvs => (setList_confined hp hvs).seq (.pure Value.in_none)
  split
  · refine (h.exactly 1).bind fun vs hvs => ?_
    split
    · exact change _ fun v hv => (List.mem_append.1 hv).elim (hitems v) (hvs v)
    · exact .wrongType
  · exact (h.exactly 0).discard.seq (change _ (by simp))
  · exact (h.exactly 0).discard.seq (newList_confined hitems)
  · refine (h.exactly 1).bind fun vs _ => ?_
    split
    · exact (gives_confined fun _ => .any _).bind fun _ _ => .pure Value.in_int
    · exact .wrongType
  · refine (h.exactly 1).bind fun vs hvs => ?_
    split
    · refine (items_confined (hvs _ List.mem_cons_self)).bind fun more hmore => ?_
      refine (list_confined hp).bind fun items hitems => change _ fun v hv => ?_
      exact (List.mem_append.1 hv).elim (hitems v) (hmore v)
    · exact .wrongType
  · exact indexWithin_confined h
  · refine (h.exactly 2).bind fun vs hvs => ?_
    split
    · refine expectSize_confined.bind fun n _ => change _ fun v hv => ?_
      rcases List.mem_append.1 hv with hv | hv
      · exact hitems v (List.mem_of_mem_take hv)
      · rcases List.mem_cons.1 hv with rfl | hv
        · exact hvs _ (by simp)
        · exact hitems v (List.mem_of_mem_drop hv)
    · exact .wrongType
  · refine (h.assign _).bind fun us _ => ?_
    split
    · rename_i i _
      extract_lets next
      have hnext : ∀ n, Confined r R (next n) (·.In r) := by
        intro n
        unfold next
        refine .guard fun _ => ?_
        split
        · refine (setList_confined hp fun v hv => hitems v (List.mem_of_mem_eraseIdx hv)).seq (.pure ?_)
          exact hitems _ (List.mem_of_getElem? ‹_›)
        · exact .throw
      cases i with
      | none => exact hnext (-1)
      | some v => exact expectSize_confined.bind fun n _ => hnext n
    · exact .wrongType
  · refine (h.exactly 1).bind fun vs _ => ?_
    split
    · refine (gives_confined fun _ => .any _).bind fun n _ => ?_
      split
      · exact change _ fun v hv => hitems v (List.mem_of_mem_eraseIdx hv)
      · exact .throw
    · exact .wrongType
  · exact (h.exactly 0).discard.seq (change _ fun v hv => hitems v (List.mem_reverse.1 hv))
  · exact .wrongType

theorem callTuple_confined [AllowsReads r R] (h : args.In r) {items : List Value} {name : String} :
    Confined r R (callTuple items name args) (·.In r) := by
  unfold callTuple
  split
  · refine (h.exactly 1).bind fun vs _ => ?_
    split
    · exact (gives_confined fun _ => .any _).bind fun _ _ => .pure Value.in_int
    · exact .wrongType
  · exact indexWithin_confined h
  · exact .wrongType

/-! ## Mappings -/

theorem pairs_confined [AllowsReads r R] :
    ∀ {vs : List Value}, (∀ v ∈ vs, v.In r) → Confined r R (entriesOf.pairs vs) (Entries.In r)
  | [], _ => .pure Entries.in_nil
  | v :: vs, h => by
    obtain ⟨hv, hvs⟩ := List.forall_mem_cons.1 h
    unfold entriesOf.pairs
    refine (items_confined hv).bind fun us hus => ?_
    split
    · obtain ⟨hk, hw⟩ := List.forall_mem_cons.1 hus
      refine (Value.key_confined hk).bind fun k hk => (pairs_confined hvs).bind fun es hes => .pure ?_
      exact List.forall_mem_cons.2 ⟨⟨hk, hw _ List.mem_cons_self⟩, hes⟩
    · exact .throw

theorem entriesOf_confined [AllowsReads r R] {v : Value} (h : v.In r) :
    Confined r R (entriesOf v) (Entries.In r) := by
  unfold entriesOf
  split
  · exact dict_confined h
  · exact (items_confined h).bind fun _ hvs => pairs_confined hvs

theorem entriesOfArguments_confined [AllowsReads r R] (h : args.In r) :
    Confined r R (entriesOfArguments args) (Entries.In r) := by
  unfold entriesOfArguments
  extract_lets next
  have hnext : ∀ first : Entries, first.In r → Confined r R (next first) (Entries.In r) := fun _ hf =>
    .pure ((Entries.in_nil.merge hf).merge h.named.entries)
  split
  · exact hnext [] Entries.in_nil
  · rename_i heq
    exact (entriesOf_confined (h.positional _ (heq ▸ List.mem_cons_self))).bind fun es hes => hnext es hes
  · exact .wrongType_bind

theorem callDict_confined [AllowsEdits r R] (h : args.In r) {place : Nat} (hp : r.dicts place) {name : String}
    (hw : name ∈ alteringDictMethods → LetsWrite r R place) : Confined r R (callDict place name args) (·.In r) := by
  unfold callDict
  refine (dict_confined hp).bind fun es hes => ?_
  split
  · refine (h.assign _).bind fun us hus => ?_
    split
    · rename_i k default
      have hdefault := hus default (by simp)
      refine (Value.key_confined (hus _ List.mem_cons_self _ rfl)).bind fun k _ => .pure ?_
      cases hf : es.find? k with
      | some v => exact hes.find? hf
      | none =>
        cases default with
        | none => exact Value.in_none
        | some v => exact hdefault v rfl
    · exact .wrongType
  · exact (h.exactly 0).discard.seq (.pure hp)
  · exact (h.exactly 0).discard.seq (.pure hp)
  · exact (h.exactly 0).discard.seq (.pure hp)
  · have hw := hw (by simp [alteringDictMethods])
    exact (h.exactly 0).discard.seq ((setDict_confined hw Entries.in_nil).seq (.pure Value.in_none))
  · exact (h.exactly 0).discard.seq (newDict_in hes)
  · have hw := hw (by simp [alteringDictMethods])
    refine (h.assign _).bind fun us hus => ?_
    split
    · rename_i k default
      have hdefault := hus default (by simp)
      refine (Value.key_confined (hus _ List.mem_cons_self _ rfl)).bind fun k _ => ?_
      split
      · exact (setDict_confined hw hes.erase).seq (.pure (hes.find? ‹_›))
      · exact .pure (hdefault _ rfl)
      · exact missingKey_confined
    · exact .wrongType
  · have hw := hw (by simp [alteringDictMethods])
    refine (h.exactly 0).discard.seq ?_
    split
    · obtain ⟨hk, hv⟩ := hes _ (List.mem_of_getLast? ‹_›)
      refine (setDict_confined hw fun e he => hes e (List.dropLast_subset _ he)).seq (.pure ?_)
      simpa using ⟨hk, hv⟩
    · exact .throw
  · have hw := hw (by simp [alteringDictMethods])
    refine (h.assign _).bind fun us hus => ?_
    split
    · rename_i k default
      have hv : (default.getD .none).In r := by
        cases default with
        | none => exact Value.in_none
        | some v => exact hus _ (by simp) v rfl
      refine (Value.key_confined (hus _ List.mem_cons_self _ rfl)).bind fun k hk => ?_
      split
      · exact .pure (hes.find? ‹_›)
      · exact (setDict_confined hw (hes.insert hk hv)).seq (.pure hv)
    · exact .wrongType
  · have hw := hw (by simp [alteringDictMethods])
    refine (entriesOfArguments_confined h).bind fun more hmore => (dict_confined hp).bind fun es hes => ?_
    exact (setDict_confined hw (hes.merge hmore)).seq (.pure Value.in_none)
  · exact .wrongType

theorem fromKeys_confined [AllowsReads r R] (h : args.In r) : Confined r R (fromKeys args) (·.In r) := by
  unfold fromKeys
  refine (h.assign _).bind fun us hus => ?_
  split
  · rename_i keys v
    have hv : (v.getD .none).In r := by
      cases v with
      | none => exact Value.in_none
      | some v => exact hus _ (by simp) v rfl
    refine (items_confined (hus _ List.mem_cons_self _ rfl)).bind fun ks hks => ?_
    refine (Confined.mapM fun k hk => Value.key_confined (hks k hk)).bind fun ks hks => ?_
    refine newDict_in (Entries.in_nil.merge fun e he => ?_)
    obtain ⟨k, hk, rfl⟩ := List.mem_map.1 he
    exact ⟨hks k hk, hv⟩
  · exact .wrongType

/-! ## Sets -/

theorem mem_addKey {set : List Value} {u v : Value} (h : u ∈ addKey set v) : u ∈ set ∨ u = v := by
  unfold addKey at h
  split at h
  · exact .inl h
  · simpa using h

theorem foldl_addKey_in {vs : List Value} (hvs : ∀ v ∈ vs, v.In r) :
    ∀ {set : List Value}, (∀ v ∈ set, v.In r) → ∀ v ∈ vs.foldl addKey set, v.In r := by
  induction vs with
  | nil => exact fun h => h
  | cons u us ih =>
    obtain ⟨hu, hus⟩ := List.forall_mem_cons.1 hvs
    exact fun h => ih hus fun v hv => (mem_addKey hv).elim (h v) fun hv => hv ▸ hu

theorem elementsOf_confined [AllowsReads r R] {v : Value} (h : v.In r) :
    Confined r R (elementsOf v) fun vs => ∀ v ∈ vs, v.In r := by
  refine (items_confined h).bind fun vs hvs => ?_
  refine (Confined.mapM fun v hv => Value.key_confined (hvs v hv)).bind fun ks hks => .pure ?_
  exact foldl_addKey_in hks (by simp)

section Combine

variable {first others : List Value} (hf : ∀ v ∈ first, v.In r) (ho : ∀ v ∈ others, v.In r)

include hf ho

theorem union_confined [AllowsReads r R] : Confined r R (union first others) fun vs => ∀ v ∈ vs, v.In r :=
  .foldlM (Q := fun vs : List Value => ∀ v ∈ vs, v.In r) hf fun _ hall v hv =>
    (elementsOf_confined (ho v hv)).bind fun _ hus => .pure (foldl_addKey_in hus hall)

theorem intersection_confined [AllowsReads r R] :
    Confined r R (intersection first others) fun vs => ∀ v ∈ vs, v.In r :=
  .foldlM (Q := fun vs : List Value => ∀ v ∈ vs, v.In r) hf fun _ hall v hv =>
    (elementsOf_confined (ho v hv)).bind fun _ _ => .pure fun u hu => hall u (List.mem_filter.1 hu).1

theorem difference_confined [AllowsReads r R] :
    Confined r R (difference first others) fun vs => ∀ v ∈ vs, v.In r :=
  .foldlM (Q := fun vs : List Value => ∀ v ∈ vs, v.In r) hf fun _ hall v hv =>
    (elementsOf_confined (ho v hv)).bind fun _ _ => .pure fun u hu => hall u (List.mem_filter.1 hu).1

end Combine

theorem symmetricDifference_confined [AllowsReads r R] {first : List Value} {other : Value}
    (hf : ∀ v ∈ first, v.In r) (ho : other.In r) :
    Confined r R (symmetricDifference first other) fun vs => ∀ v ∈ vs, v.In r :=
  (elementsOf_confined ho).bind fun _ hvs => .pure fun v hv => (List.mem_append.1 hv).elim
    (fun hv => hf v (List.mem_filter.1 hv).1) fun hv => hvs v (List.mem_filter.1 hv).1

theorem callSet_confined [AllowsEdits r R] (h : args.In r) {place : Nat} (hp : r.sets place) {name : String} :
    Confined r R (callSet place name args) (·.In r) := by
  unfold callSet
  refine (set_confined hp).bind fun elements he => ?_
  extract_lets others update one
  have hothers : Confined r R others fun vs => ∀ v ∈ vs, v.In r :=
    .ite (fun _ => .pure h.positional) fun _ => .wrongType
  have hupdate : ∀ vs, (∀ v ∈ vs, v.In r) → Confined r R (update vs) (·.In r) := fun _ hvs =>
    (setSet_confined hp hvs).seq (.pure Value.in_none)
  have hone : Confined r R one (·.In r) := by
    refine (h.exactly 1).bind fun vs hvs => ?_
    split
    · exact .pure (hvs _ List.mem_cons_self)
    · exact .wrongType
  have hfiltered : ∀ p : Value → Bool, ∀ v ∈ elements.filter p, v.In r := fun _ v hv => he v (List.mem_filter.1 hv).1
  have hsingle : ∀ v : Value, v.In r → ∀ u ∈ [v], u.In r := fun v hv => by simpa using hv
  split
  · exact hone.bind fun v hv => (Value.key_confined hv).bind fun k hk =>
      hupdate _ fun u hu => (mem_addKey hu).elim (he u) fun hu => hu ▸ hk
  · exact (h.exactly 0).discard.seq (hupdate _ (by simp))
  · exact (h.exactly 0).discard.seq (newSet_confined he)
  · exact hone.bind fun v hv => (Value.key_confined hv).bind fun _ _ => hupdate _ (hfiltered _)
  · exact hone.bind fun v hv => (Value.key_confined hv).bind fun _ _ =>
      .ite (fun _ => hupdate _ (hfiltered _)) fun _ => missingKey_confined
  · refine (h.exactly 0).discard.seq ?_
    split
    · obtain ⟨hv, hrest⟩ := List.forall_mem_cons.1 he
      exact (setSet_confined hp hrest).seq (.pure hv)
    · exact .throw
  · exact hothers.bind fun _ ho => (union_confined he ho).bind fun _ hvs => newSet_confined hvs
  · exact hothers.bind fun _ ho => (union_confined he ho).bind fun _ hvs => hupdate _ hvs
  · exact hothers.bind fun _ ho => (intersection_confined he ho).bind fun _ hvs => newSet_confined hvs
  · exact hothers.bind fun _ ho => (intersection_confined he ho).bind fun _ hvs => hupdate _ hvs
  · exact hothers.bind fun _ ho => (difference_confined he ho).bind fun _ hvs => newSet_confined hvs
  · exact hothers.bind fun _ ho => (difference_confined he ho).bind fun _ hvs => hupdate _ hvs
  · exact hone.bind fun _ ho => (symmetricDifference_confined he ho).bind fun _ hvs => newSet_confined hvs
  · exact hone.bind fun _ ho => (symmetricDifference_confined he ho).bind fun _ hvs => hupdate _ hvs
  · exact hone.bind fun v hv => (intersection_confined he (hsingle v hv)).bind fun _ _ => .pure Value.in_bool
  · exact hone.bind fun v hv => (difference_confined he (hsingle v hv)).bind fun _ _ => .pure Value.in_bool
  · exact hone.bind fun v hv => (elementsOf_confined hv).bind fun _ _ => .pure Value.in_bool
  · exact .wrongType

/-! ## Ranges and views -/

theorem callRange_confined [AllowsReads r R] (h : args.In r) {v : Value} (hv : v.In r) {name : String} :
    Confined r R (callRange v name args) (·.In r) := by
  unfold callRange
  refine (h.exactly 1).bind fun vs _ => ?_
  split
  · refine (items_confined hv).bind fun all _ => (gives_confined fun _ => .any _).bind fun n _ => ?_
    split
    · exact .pure Value.in_int
    · exact .pure Value.in_int
    · exact .throw
    · exact .wrongType
  · exact .wrongType

theorem callView_confined [AllowsReads r R] (h : args.In r) {kind : ViewKind} {place : Nat} (hp : r.dicts place)
    {name : String} : Confined r R (callView kind place name args) (·.In r) := by
  unfold callView
  split
  · refine (h.exactly 1).bind fun vs hvs => ?_
    split
    · refine (dict_confined hp).bind fun _ _ => (items_confined (hvs _ List.mem_cons_self)).bind fun _ _ => ?_
      exact (gives_confined fun _ => .any _).bind fun _ _ => .pure Value.in_bool
    · exact .wrongType
  · exact .wrongType

end Run

end NestedSite
