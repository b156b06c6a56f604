import NestedSite.Proofs.Store.Places
import NestedSite.Value.Iteration

/-!
# Going through values of a region

The items of a value of a region lie in the region (`Run.items_confined`). Going through it moves cursors and nothing
else, so that a relation need only let values be read.
-/

namespace NestedSite

open Region (AllowsReads AllowsEdits)

variable {r : Region} {R : World → World → Prop}

theorem Value.key_confined [AllowsReads r R] {v : Value} (h : v.In r) : Confined r R v.key (·.In r) := by
  unfold Value.key
  split
  · exact .pure h
  · exact .wrongType

/-- Values that hold no place lie in every region. -/
theorem in_of_mem_map {α : Type} {f : α → Value} {xs : List α} (h : ∀ x, (f x).In r) : ∀ v ∈ xs.map f, v.In r := by
  intro v hv
  obtain ⟨x, _, rfl⟩ := List.mem_map.1 hv
  exact h x

theorem characters_in (t : String) : ∀ v ∈ characters t, v.In r := in_of_mem_map fun _ => Value.in_text

theorem numbers_in (next step : Int) : ∀ (n : Nat), ∀ v ∈ numbers next step n, v.In r
  | 0, _, hv => absurd hv List.not_mem_nil
  | n + 1, v, hv => by
    rcases List.mem_cons.1 hv with rfl | hv
    · exact Value.in_int
    · exact numbers_in (next + step) step n v hv

namespace Run

theorem fieldPairs_in {fields : List (String × Value)} (h : FieldsIn r fields) :
    ∀ v ∈ cursor.fieldPairs fields, v.In r := by
  intro v hv
  obtain ⟨f, hf, rfl⟩ := List.mem_map.1 hv
  simpa using h f hf

theorem cursor_confined [AllowsReads r R] {v : Value} (h : v.In r) :
    Confined r R (cursor v) fun p => r.cursors p := by
  unfold cursor
  split
  case h_1 p => exact .pure (r.held_cursors p h)
  case h_2 p => exact newCursor_confined h
  case h_3 p => exact (dict_confined h).bind fun _ _ => newCursor_confined h
  case h_4 kind p => exact (dict_confined h).bind fun _ _ => newCursor_confined h
  case h_5 p => exact (set_confined h).bind fun _ hvs => newCursor_confined hvs
  case h_6 xs => exact newCursor_confined (Value.in_tuple.1 h)
  case h_7 t => exact newCursor_confined (characters_in t)
  case h_8 bs => exact newCursor_confined (in_of_mem_map fun _ => Value.in_int)
  case h_9 => exact newCursor_confined trivial
  case h_10 p => exact store_confined.bind fun _ hs => newCursor_confined (fieldPairs_in (hs.legends p h).fields)
  case h_11 p => exact store_confined.bind fun _ hs => newCursor_confined (fieldPairs_in (hs.metadata p h).fields)
  case h_12 => exact .wrongType

/-! ## The next item -/

section Next

variable {n : Nat} (ih : ∀ p, r.cursors p → Confined r R (nextTo? n p) fun v => ∀ u ∈ v, u.In r)

include ih

theorem row_confined [AllowsReads r R] :
    ∀ (ps : List Nat) (taken : List Value), (∀ p ∈ ps, r.cursors p) → (∀ v ∈ taken, v.In r) →
      Confined r R (nextTo?.row n taken ps) fun vs => ∀ v ∈ vs.1, v.In r
  | [], taken, _, ht => by
    unfold nextTo?.row
    exact .pure fun v hv => ht v (List.mem_reverse.1 hv)
  | p :: ps, taken, hps, ht => by
    unfold nextTo?.row
    refine (ih p (hps p List.mem_cons_self)).bind fun v hv => ?_
    split
    · refine row_confined ps _ (fun q hq => hps q (List.mem_cons_of_mem _ hq)) ?_
      exact List.forall_mem_cons.2 ⟨hv _ rfl, ht⟩
    · exact .pure fun v hv => ht v (List.mem_reverse.1 hv)

end Next

theorem nextTo?_confined [AllowsReads r R] :
    ∀ (n place : Nat), r.cursors place → Confined r R (nextTo? n place) fun v => ∀ u ∈ v, u.In r
  | 0, _, _ => by
    unfold nextTo?
    exact .throw
  | n + 1, place, h => by
    have ih := nextTo?_confined n
    unfold nextTo?
    refine store_confined.bind fun s hs => ?_
    have hc := hs.cursors place h
    -- a cursor that has come to its end, and one that goes on as `c` with the item `v`
    have ended : ∀ type, Confined r R (do setCursor place (.done type); pure (none : Option Value))
        fun v => ∀ u ∈ v, u.In r :=
      fun type => (setCursor_confined h (show (Cursor.done type).In r from trivial)).seq (.pure (by simp))
    have goesOn : ∀ {c : Cursor} {v : Value}, c.In r → v.In r →
        Confined r R (do setCursor place c; pure (some v)) fun v => ∀ u ∈ v, u.In r :=
      fun hc hv => (setCursor_confined h hc).seq (.pure (by simpa using hv))
    have nothing : Confined r R (pure none) fun v : Option Value => ∀ u ∈ v, u.In r := .pure (by simp)
    dsimp only
    split
    case h_1 p k heq =>
      rw [heq] at hc
      split
      · exact goesOn hc (hs.lists p hc _ (List.mem_of_getElem? ‹_›))
      · exact ended _
    case h_2 p left heq =>
      rw [heq] at hc
      split
      · exact ended _
      · split
        · exact goesOn hc (hs.lists p hc _ (List.mem_of_getElem? ‹_›))
        · exact ended _
    case h_3 kind p k size heq =>
      rw [heq] at hc
      refine .guard fun _ => ?_
      split
      · exact goesOn hc ((hs.dicts p hc).view kind _ (List.mem_of_getElem? ‹_›))
      · exact ended _
    case h_4 kind p left size heq =>
      rw [heq] at hc
      refine .guard fun _ => ?_
      split
      · exact ended _
      · split
        · exact goesOn hc ((hs.dicts p hc).view kind _ (List.mem_of_getElem? ‹_›))
        · exact ended _
    case h_5 =>
      split
      · exact nothing
      · exact goesOn trivial Value.in_int
    case h_6 type rest heq =>
      rw [heq] at hc
      split
      · exact nothing
      · obtain ⟨hv, hrest⟩ := List.forall_mem_cons.1 hc
        exact goesOn hrest hv
    case h_7 inner count heq =>
      rw [heq] at hc
      refine (ih inner hc).bind fun v hv => ?_
      split
      · exact goesOn hc (by simpa using hv _ rfl)
      · exact nothing
    case h_8 inner strict heq =>
      rw [heq] at hc
      refine .ite (fun _ => nothing) fun _ => ?_
      refine (row_confined ih inner [] hc (by simp)).bind fun vs hvs => ?_
      split
      · exact .pure (by simpa using hvs)
      · refine .ite (fun _ => ?_) fun _ => nothing
        refine .guard fun _ => ?_
        refine (Confined.forIn fun p hp => ?_).seq nothing
        refine (ih p (hc p (List.mem_of_mem_drop hp))).bind fun v _ => ?_
        refine .ite (fun _ => .throw_bind) fun _ => .pure rfl
    case h_9 => exact nothing

theorem next?_confined [AllowsReads r R] {place : Nat} (h : r.cursors place) :
    Confined r R (next? place) fun v => ∀ u ∈ v, u.In r := nextTo?_confined depthLimit place h

/-! ## All items -/

theorem drainGo_confined [AllowsReads r R] {place : Nat} (h : r.cursors place) :
    ∀ (n : Nat) (taken : List Value), (∀ v ∈ taken, v.In r) →
      Confined r R (drain.go place n taken) fun vs => ∀ v ∈ vs, v.In r
  | 0, _, _ => .throw
  | n + 1, taken, ht => by
    unfold drain.go
    refine (next?_confined h).bind fun v hv => ?_
    split
    · exact drainGo_confined h n _ (List.forall_mem_cons.2 ⟨hv _ rfl, ht⟩)
    · exact .pure fun v hv => ht v (List.mem_reverse.1 hv)

theorem drain_confined [AllowsReads r R] {place : Nat} (h : r.cursors place) :
    Confined r R (drain place) fun vs => ∀ v ∈ vs, v.In r := drainGo_confined h sizeLimit [] (by simp)

theorem items_confined [AllowsReads r R] {v : Value} (h : v.In r) :
    Confined r R (items v) fun vs => ∀ v ∈ vs, v.In r := by
  unfold items
  split
  case h_1 p => exact list_confined h
  case h_2 xs => exact .pure (Value.in_tuple.1 h)
  case h_3 p => exact (dict_confined h).bind fun _ hes => .pure hes.keys
  case h_4 kind p => exact (dict_confined h).bind fun _ hes => .pure (hes.view kind)
  case h_5 p => exact set_confined h
  case h_6 t => exact .pure (characters_in t)
  case h_7 bs => exact .pure (in_of_mem_map fun _ => Value.in_int)
  case h_8 a b c => exact .guard fun _ => .guard fun _ => .pure (numbers_in _ _ _)
  case h_9 => exact (cursor_confined h).bind fun _ hp => drain_confined hp

theorem findIn_confined [AllowsReads r R] {v : Value} {vs : List Value} :
    Confined r R (contains.findIn v vs) fun _ => True := read_confined fun _ _ _ _ => trivial

theorem contains_confined [AllowsReads r R] {container v : Value} (hc : container.In r) (hv : v.In r) :
    Confined r R (contains container v) fun _ => True := by
  have inItems : Confined r R (do return (← contains.findIn v (← items container)).isSome) fun _ => True :=
    (items_confined hc).bind fun _ _ => findIn_confined.bind fun _ _ => .pure trivial
  unfold contains
  split
  case h_1 t =>
    split
    · exact .pure trivial
    · exact .wrongType
  case h_2 p => exact (dict_confined hc).bind fun _ _ => (Value.key_confined hv).bind fun _ _ => .pure trivial
  case h_3 p => exact (dict_confined hc).bind fun _ _ => (Value.key_confined hv).bind fun _ _ => .pure trivial
  case h_4 p =>
    split
    · exact (set_confined hc).bind fun _ _ => .pure trivial
    · exact (set_confined hc).bind fun _ _ => (Value.key_confined hv).bind fun _ _ => .pure trivial
  case h_5 bs =>
    split
    · exact .pure trivial
    · split
      · exact .ite (fun _ => .pure trivial) fun _ => .throw
      · exact .wrongType
  case h_6 a b c =>
    split
    · exact .pure trivial
    · exact inItems
  case h_7 => exact inItems

end Run

end NestedSite
