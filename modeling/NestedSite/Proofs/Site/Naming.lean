import NestedSite.Proofs.Site.Pass
import NestedSite.Proofs.Template.Mention

/-!
# Contexts that mean the same

A template sees only the names that it mentions. It puts out the same, or fails alike, in contexts that bind these
names to copies of the same values, whatever else the contexts hold (`Engine.render_sees_only_mentioned`). For each of
the two contexts, what it binds the names to may stand in its place (`Template.render_named`), and what is rendered
without a context depends only on what is reached from the base scope and from the engine (`Engine.render_copied`).
-/

namespace NestedSite

open Template (Bindings)

/-- Without a context, a template puts out the same wherever what its base scope and its engine lead to has a copy. -/
theorem Engine.render_copied {e : Engine} {base : Bindings} {s : Store} {roots : List Value} {φ : Relocation}
    {v : World} (h : s.CopiedTo roots φ v.store) (hheld : ∀ u ∈ e.held, s.Reaches roots u)
    (hbase : ∀ b ∈ base, s.Reaches roots b.2) (t : Template) (n : Nat) :
    (t.render ((e.moved φ).host n) (movedFields φ base) none).outcome v =
      (t.render ((e.moved (s.numbering roots)).host n) (movedFields (s.numbering roots) base) none).outcome
        { store := s.extract roots } := by
  have hmoves := Template.render_moves (host_moves (ρ := h.spread) (e.moved (s.numbering roots)) n)
    (movedFields (s.numbering roots) base) t none
  obtain ⟨houtcome, -, -⟩ := hmoves { store := s.extract roots } v h.fits
  rw [moved_factors h.factors hheld, h.factors.fields hbase] at houtcome
  exact houtcome.trans (by cases Run.outcome _ _ <;> rfl)

/-- What a template can get at from a context: what the context binds the names to that the template mentions, what the
base scope binds names to, and what the engine holds. -/
def Engine.inSight (e : Engine) (t : Template) (base : Bindings) (es : Entries) : List Value :=
  (t.mentioned es ++ base).map Prod.snd ++ e.held

/-- The contexts at two places mean the same to a template: the second one binds the names that the template mentions to
copies of what the first one binds them to, and nothing that the template can get at leads to either of them. -/
structure Engine.MeansSame (e : Engine) (t : Template) (base : Bindings) (φ : Relocation) (w : World) (p : Nat)
    (w' : World) (p' : Nat) : Prop where
  copied : w.store.CopiedTo (e.inSight t base (w.store.dict p)) φ w'.store
  names : ∀ name, t.mentions name = true → w'.binding? p' name = (w.binding? p name).map (Value.moved φ)
  lt : p < w.store.dicts.size
  lt' : p' < w'.store.dicts.size
  apart : ¬w.store.Reaches (e.inSight t base (w.store.dict p)) (.dict p)
  apart' : ∀ q, w.store.Reaches (e.inSight t base (w.store.dict p)) (.dict q) → φ.dicts q ≠ p'

namespace Engine.MeansSame

variable {e : Engine} {t : Template} {base : Bindings} {φ : Relocation} {w w' : World} {p p' : Nat}

/-- In place of the first context. -/
theorem render_first (h : e.MeansSame t base φ w p w' p') (ht : t.Accepted) (he : ∀ u ∈ e.templates, u.2.Accepted)
    (n : Nat) : (t.render (e.host n) base (some p)).outcome w =
      (t.render (e.host n) (t.mentioned (w.store.dict p) ++ base) none).outcome w := by
  have hheld : ∀ v ∈ e.held, w.store.Reaches (e.inSight t base (w.store.dict p)) v := fun v hv =>
    .root (List.mem_append_right _ hv)
  have hlawful := Engine.lawful_reachedWith he hheld
  refine Template.render_named ht (Engine.host_confined hlawful n) (fun b hb => ?_) h.lt h.apart fun name hname => ?_
  · exact .root (List.mem_append_left _ (List.mem_map_of_mem hb))
  · exact Template.find?_mentioned hname _

/-- In place of the second context. -/
theorem render_second (h : e.MeansSame t base φ w p w' p') (ht : t.Accepted) (he : ∀ u ∈ e.templates, u.2.Accepted)
    (n : Nat) : (t.render ((e.moved φ).host n) (movedFields φ base) (some p')).outcome w' =
      (t.render ((e.moved φ).host n) (movedFields φ (t.mentioned (w.store.dict p) ++ base)) none).outcome w' := by
  have hheld : ∀ v ∈ (e.moved φ).held,
      w'.store.Reaches ((e.inSight t base (w.store.dict p)).map (Value.moved φ)) v := fun v hv =>
    .root (List.map_append ▸ List.mem_append_right _ (e.held_moved ▸ hv))
  have htemplates : ∀ u ∈ (e.moved φ).templates, u.2.Accepted := he
  have hlawful := Engine.lawful_reachedWith htemplates hheld
  rw [movedFields_append]
  refine Template.render_named ht (Engine.host_confined hlawful n) (fun b hb => ?_) h.lt' (fun hreach => ?_)
    fun name hname => ?_
  · rw [← movedFields_append] at hb
    obtain ⟨c, hc, rfl⟩ := List.mem_map.1 hb
    exact .root (List.mem_map_of_mem (List.mem_append_left _ (List.mem_map_of_mem hc)))
  · obtain ⟨v, hv, heq⟩ := h.copied.reaches hreach
    cases v <;> cases heq
    exact h.apart' _ hv rfl
  · rw [Template.Bindings.find?_moved, Template.find?_mentioned hname, h.names name hname]
    rfl

end Engine.MeansSame

/-- A world with two contexts that share a list, and hold different things besides. -/
def sharing : World where
  store :=
    { lists := #[[]],
      dicts := #[[(.text "xs", .list 0), (.text "a", .int 1)], [(.text "b", .text "t"), (.text "xs", .list 0)]] }

end NestedSite
