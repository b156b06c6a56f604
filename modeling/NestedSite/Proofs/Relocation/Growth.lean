import NestedSite.Proofs.Relocation.Registration

/-!
# Stores that grow

A computation that goes together with itself under every relocation does not know the places that are there before it
(`Moves.beginning`). So it leaves them as they are (`Store.Keeps`), and ends as it does in the empty world, moved: the
places that come about there are found in its own world, with what they hold (`Relocation.Carries`), and they are still
found when that world grows (`Relocation.Carries.keeps`).
-/

namespace NestedSite

variable {α β : Type} {ρ : Relocation} {s t u : Store}

/-- A place below `n` is found by `f` below `n'`, with what it holds changed by `g`. -/
def Found (f : Nat → Nat) (g : α → α) (n n' : Nat) (look look' : Nat → α) : Prop :=
  ∀ p < n, f p < n' ∧ look' (f p) = g (look p)

namespace Found

variable {f : Nat → Nat} {g : α → α} {n n' n'' : Nat} {look look' look'' : Nat → α}

theorem refl : Found id id n n look look := fun _ hp => ⟨hp, rfl⟩

theorem trans (h : Found f g n n' look look') (k : Found id id n' n'' look' look'') : Found f g n n'' look look'' := by
  intro p hp
  obtain ⟨hlt, hlook⟩ := h p hp
  obtain ⟨hlt', hlook'⟩ := k (f p) hlt
  exact ⟨hlt', hlook'.trans hlook⟩

/-- Places before those that `f` leads to are spared. -/
theorem of_spared {a : Nat} (hf : ∀ q, n ≤ f q) (free : ∀ k, f (a + k) = n' + k)
    (spares : ∀ p, (∀ q, f q ≠ p) → look' p = look p) : Found id id n n' look look' := by
  intro p hp
  have hne (q : Nat) : f q ≠ p := Nat.ne_of_gt (Nat.lt_of_lt_of_le hp (hf q))
  exact ⟨lt_of_free free hne, spares p hne⟩

end Found

/-- Every place in use is still in use, and holds what it held. -/
structure Store.Keeps (s t : Store) : Prop where
  lists : Found id id s.lists.size t.lists.size s.list t.list
  dicts : Found id id s.dicts.size t.dicts.size s.dict t.dict
  sets : Found id id s.sets.size t.sets.size s.set t.set
  cursors : Found id id s.cursors.size t.cursors.size s.cursor t.cursor
  legends : Found id id s.legends.size t.legends.size s.legend t.legend
  metadata : Found id id s.metadata.size t.metadata.size s.metadataAt t.metadataAt

/-- Every place in use is found in another store, in use and with what it holds, moved. -/
structure Relocation.Carries (ρ : Relocation) (s t : Store) : Prop where
  lists : Found ρ.lists (List.map (Value.moved ρ)) s.lists.size t.lists.size s.list t.list
  dicts : Found ρ.dicts (Entries.moved ρ) s.dicts.size t.dicts.size s.dict t.dict
  sets : Found ρ.sets (List.map (Value.moved ρ)) s.sets.size t.sets.size s.set t.set
  cursors : Found ρ.cursors (Cursor.moved ρ) s.cursors.size t.cursors.size s.cursor t.cursor
  legends : Found ρ.legends (Legend.moved ρ) s.legends.size t.legends.size s.legend t.legend
  metadata : Found ρ.metadata (Metadata.moved ρ) s.metadata.size t.metadata.size s.metadataAt t.metadataAt

namespace Store.Keeps

theorem refl (s : Store) : s.Keeps s := ⟨.refl, .refl, .refl, .refl, .refl, .refl⟩

theorem trans (h : s.Keeps t) (k : t.Keeps u) : s.Keeps u where
  lists := h.lists.trans k.lists
  dicts := h.dicts.trans k.dicts
  sets := h.sets.trans k.sets
  cursors := h.cursors.trans k.cursors
  legends := h.legends.trans k.legends
  metadata := h.metadata.trans k.metadata

end Store.Keeps

namespace Relocation

theorem Carries.keeps (h : ρ.Carries s t) (k : t.Keeps u) : ρ.Carries s u where
  lists := h.lists.trans k.lists
  dicts := h.dicts.trans k.dicts
  sets := h.sets.trans k.sets
  cursors := h.cursors.trans k.cursors
  legends := h.legends.trans k.legends
  metadata := h.metadata.trans k.metadata

theorem Fits.carries (h : ρ.Fits s t) : ρ.Carries s t where
  lists p hp := ⟨(lt_iff_of_free ρ.lists_inj h.freeLists).2 hp, h.list p⟩
  dicts p hp := ⟨(lt_iff_of_free ρ.dicts_inj h.freeDicts).2 hp, h.dict p⟩
  sets p hp := ⟨(lt_iff_of_free ρ.sets_inj h.freeSets).2 hp, h.set p⟩
  cursors p hp := ⟨(lt_iff_of_free ρ.cursors_inj h.freeCursors).2 hp, h.cursor p⟩
  legends p hp := ⟨(lt_iff_of_free ρ.legends_inj h.freeLegends).2 hp, h.legend p⟩
  metadata p hp := ⟨(lt_iff_of_free ρ.metadata_inj h.freeMetadata).2 hp, h.metadata p⟩

/-- What fits behind a store and spares it has kept it. -/
theorem Fits.keeps (h : (behind s).Fits u t) (hspares : (behind s).Spares s t) : s.Keeps t where
  lists := .of_spared (fun q => Nat.le_add_right _ q) h.freeLists hspares.lists
  dicts := .of_spared (fun q => Nat.le_add_right _ q) h.freeDicts hspares.dicts
  sets := .of_spared (fun q => Nat.le_add_right _ q) h.freeSets hspares.sets
  cursors := .of_spared (fun q => Nat.le_add_right _ q) h.freeCursors hspares.cursors
  legends := .of_spared (fun q => Nat.le_add_right _ q) h.freeLegends hspares.legends
  metadata := .of_spared (fun q => Nat.le_add_right _ q) h.freeMetadata hspares.metadata

end Relocation

/-- Behind a world, a computation does what it does in the empty one. -/
theorem Moves.beginning {f : α → β} {m : Run α} {m' : Run β} {w : World} (h : Moves (.behind w.store) f m m') :
    m'.outcome w = (m.outcome {}).map f ∧ (Relocation.behind w.store).Carries (m.after {}).store (m'.after w).store ∧
      w.store.Keeps (m'.after w).store := by
  obtain ⟨houtcome, hfits, hspares⟩ := h {} w (Relocation.behind_fits w.store)
  exact ⟨houtcome, hfits.carries, hfits.keeps hspares⟩

/-- So it has the same fault. -/
theorem Moves.outcome_eq_error_iff {f : α → β} {m : Run α} {m' : Run β} {w : World}
    (h : Moves (.behind w.store) f m m') {e : Fault} : m'.outcome w = .error e ↔ m.outcome {} = .error e := by
  rw [h.beginning.1]
  cases m.outcome {} <;> simp [Except.map]

end NestedSite
