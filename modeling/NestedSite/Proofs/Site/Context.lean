import NestedSite.Proofs.Site.Rendering
import NestedSite.Proofs.Store.Ensures
import NestedSite.Proofs.Store.Entries

/-!
# Contexts

Changing a context binds a key of it (`Engine.setKey_run`), or binds it to the empty text unless it is bound to a text
(`Engine.ensureText_run`). So a context that is prepared for a template has a text as its content
(`World.binding?_prepared`). What a level without a template puts out is `World.content`. None of this reaches a place
where no mapping is; a mapping that is there stays there (`Engine.Present`, `Engine.present_confined`).
-/

namespace NestedSite

/-- The world in which a key of the mapping at a place is bound to the empty text, unless it was bound to a text. -/
def World.withText (w : World) (place : Nat) (key : String) : World :=
  match w.binding? place key with
  | some (.text _) => w
  | _ => w.withEntry place key (.text "")

namespace World

theorem withText_of_text {w : World} {place : Nat} {key t : String} (h : w.binding? place key = some (.text t)) :
    w.withText place key = w := by rw [withText, h]

@[simp] theorem dicts_size_withText (w : World) (place : Nat) (key : String) :
    (w.withText place key).store.dicts.size = w.store.dicts.size := by
  unfold withText
  split <;> simp

theorem binding?_withText {w : World} {place : Nat} (h : place < w.store.dicts.size) (key : String) :
    ∃ t, (w.withText place key).binding? place key = some (.text t) := by
  unfold withText
  split
  · exact ⟨_, ‹_›⟩
  · exact ⟨"", by rw [binding?_withEntry h, if_pos rfl]⟩

theorem binding?_withText_of_ne {w : World} {place : Nat} (h : place < w.store.dicts.size) {key other : String}
    (hne : key ≠ other) : (w.withText place key).binding? place other = w.binding? place other := by
  unfold withText
  split
  · rfl
  · rw [binding?_withEntry h, if_neg hne]

/-- What a level without a template puts out. -/
def content (w : World) (context : Nat) : Value := (w.binding? context contentKey).getD (.text "")

/-- The world in which a context has what every template finds in it. -/
def prepared (w : World) (context : Nat) : World :=
  ((w.withText context contentKey).withText context titleKey).withEntry context selfKey (.dict context)

@[simp] theorem dicts_size_prepared (w : World) (context : Nat) :
    (w.prepared context).store.dicts.size = w.store.dicts.size := by simp [prepared]

theorem binding?_prepared {w : World} {context : Nat} (h : context < w.store.dicts.size) :
    (w.prepared context).binding? context contentKey = (w.withText context contentKey).binding? context contentKey := by
  unfold prepared
  rw [binding?_withEntry (by simpa using h), if_neg (by decide), binding?_withText_of_ne (by simpa using h) (by decide)]

end World

namespace Engine

theorem setKey_run (context : Nat) (key : String) (v : Value) (w : World) :
    (setKey context key v).run.run w = (.ok (), w.withEntry context key v) := rfl

theorem ensureText_run (context : Nat) (key : String) (w : World) :
    (ensureText context key).run.run w = (.ok (), w.withText context key) := by
  unfold ensureText
  rw [Run.run_bind, Run.dict_run]
  unfold World.withText World.binding?
  dsimp only
  cases (w.store.dict context).find? (.text key) with
  | none => rfl
  | some v => cases v <;> rfl

theorem passedContent_run (context : Nat) (w : World) :
    (passedContent context).run.run w = (.ok (w.content context), w) := rfl

/-! ## Contexts that are there -/

/-- There is a mapping at the place. -/
def Present (p : Nat) (w : World) : Prop := p < w.store.dicts.size

theorem Present.mono {p : Nat} {w w' : World} (h : Present p w) (hw : Rendering w w') : Present p w' :=
  Nat.lt_of_lt_of_le h hw.dicts_le

theorem newDict_ensures {α : Type} {es : Entries} {w : World} {f : Value → Run α} {Q : α → World → Prop}
    (h : ∀ p u, Present p u → (f (.dict p)).Ensures u Q) : (Run.newDict es >>= f).Ensures w Q :=
  .step_bind (Run.newDict_run es w) (h _ _ (by simp [Present]))

theorem contextOf_ensures {v : Value} {w : World} (h : ∀ p, v = .dict p → Present p w) :
    (contextOf v).Ensures w Present := by
  unfold contextOf
  split
  · exact .pure (h _ rfl)
  · exact newDict_ensures fun p u hp => .pure hp

theorem copiedContext_ensures (v : Value) (w : World) : (copiedContext v).Ensures w Present := by
  unfold copiedContext
  split
  · refine .step_bind (a := w.store.dict _) rfl (newDict_ensures fun p u hp => contextOf_ensures fun q hq => ?_)
    cases hq
    exact hp
  · exact contextOf_ensures nofun

/-- What is there stays there. -/
theorem present_confined {α : Type} {m : Run α} {Q : α → Prop} {p : Nat} {w : World}
    (hm : Confined .whole Rendering m Q) (h : Present p w) : m.Ensures w fun _ w' => Present p w' :=
  (Run.Ensures.of_confined hm w).mono fun _ _ hu => h.mono hu.1

end Engine

end NestedSite
