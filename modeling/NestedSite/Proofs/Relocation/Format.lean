import NestedSite.Proofs.Relocation.Store

/-!
# Writing values that are moved

What a format specification or a `%` pattern makes of a value is the same wherever its places are
(`Store.format_moved`, `Store.fillIn_moved`, `Store.fillInBytes_moved`). The values that a pattern has not used yet move
along while it is filled in (`Percent.Fill.Moves`).
-/

namespace NestedSite

variable {ρ : Relocation} {s s' : Store}

theorem Store.format_moved (h : ρ.Fits s s') (v : Value) (spec : String) :
    s'.format (v.moved ρ) spec = s.format v spec := by
  unfold Store.format
  rw [Store.text_moved h]
  split
  · rfl
  · cases v <;> rfl

namespace Percent

def Source.moved (ρ : Relocation) (source : Source) : Source :=
  { source with rest := source.rest.map (Value.moved ρ), keyed := source.keyed.map (Value.moved ρ) }

/-! ## One directive -/

theorem wholeNumber_moved (kind : Char) (v : Value) : wholeNumber kind (v.moved ρ) = wholeNumber kind v := by
  cases v <;> rfl

theorem textOf_moved (h : ρ.Fits s s') (bytes : Bool) (v : Value) :
    textOf s' bytes (v.moved ρ) = textOf s bytes v := by
  unfold textOf
  rw [Store.text_moved h]
  cases v <;> rfl

theorem characterOf_moved (bytes : Bool) (v : Value) : characterOf bytes (v.moved ρ) = characterOf bytes v := by
  cases v <;> cases bytes <;> rfl

theorem write_moved (h : ρ.Fits s s') (bytes : Bool) (d : Directive) (v : Value) :
    write s' bytes d (v.moved ρ) = write s bytes d v := by
  unfold write
  simp only [textOf_moved h, Store.show_moved h, characterOf_moved, wholeNumber_moved]
  cases v <;> rfl

/-! ## A whole pattern -/

namespace Fill

variable {α β γ δ : Type} {m : Fill α} {m' : Fill β} {f : α → β} {g : γ → δ}

/-- Started with the moved values, `m'` does what `m` does, with a result that is moved by `f`. -/
def Moves (ρ : Relocation) (f : α → β) (m : Fill α) (m' : Fill β) : Prop :=
  ∀ source, m'.run (source.moved ρ) = (m.run source).map fun r => (f r.1, r.2.moved ρ)

namespace Moves

theorem pure {a : α} {b : β} (h : b = f a) : Moves ρ f (Pure.pure a) (Pure.pure b) := fun _ => by subst h; rfl

theorem throw {e : Fault} : Moves ρ f (MonadExcept.throw e) (MonadExcept.throw e) := fun _ => rfl

theorem bind (h : Moves ρ f m m') {k : α → Fill γ} {k' : β → Fill δ} (hk : ∀ a, Moves ρ g (k a) (k' (f a))) :
    Moves ρ g (m >>= k) (m' >>= k') := by
  intro source
  rw [StateT.run_bind, StateT.run_bind, h source]
  rcases m.run source with e | ⟨a, source⟩
  · rfl
  · exact hk a source

/-- A result that holds no places is handed on as it is. -/
theorem bindPlain {n n' : Fill α} (h : Moves ρ id n n') {k : α → Fill γ} {k' : α → Fill δ}
    (hk : ∀ a, Moves ρ g (k a) (k' a)) : Moves ρ g (n >>= k) (n' >>= k') := h.bind hk

theorem get : Moves ρ (Source.moved ρ) MonadState.get MonadState.get := fun _ => rfl

/-- What needs no values. -/
theorem lift (r : Except Fault α) : Moves ρ id (liftM r : Fill α) (liftM r : Fill α) := by
  intro source
  rcases r with e | a <;> rfl

theorem ite {c : Prop} [Decidable c] {n : Fill α} {n' : Fill β} (h : Moves ρ f m m') (k : Moves ρ f n n') :
    Moves ρ f (if c then m else n) (if c then m' else n') := by
  split
  · exact h
  · exact k

end Moves

end Fill

open Fill (Moves)

theorem next_moves : Moves ρ (Value.moved ρ) next next := by
  unfold next
  refine Moves.get.bind fun source => ?_
  obtain ⟨_ | ⟨v, rest⟩, keyed, bytes⟩ := source
  · exact .throw
  · exact fun _ => rfl

theorem number_moves (limit : Nat) (cs : List Char) : Moves ρ id (number limit cs) (number limit cs) := by
  unfold number
  split
  · refine next_moves.bind fun v => ?_
    rw [Value.int?_moved]
    split
    · exact .ite (.pure rfl) .throw
    · exact .throw
  · exact .ite .throw (.pure rfl)

theorem directive_moves (h : ρ.Fits s s') (cs : List Char) : Moves ρ id (directive s cs) (directive s' cs) := by
  unfold directive
  refine .ite (.pure rfl) ?_
  extract_lets written begun written' begun'
  -- what follows the flags, the width and the precision
  have hwritten (r : Directive × List Char) : Moves ρ id (written r) (written' r) := by
    obtain ⟨d, cs⟩ := r
    dsimp only [written, written']
    split
    · exact .throw
    · refine next_moves.bind fun v => (Moves.lift _).bind fun _ => Moves.get.bind fun source => ?_
      rw [write_moved h]
      exact (Moves.lift _).bind fun _ => .pure rfl
  -- what follows the key
  have hbegun (cs : List Char) : Moves ρ id (begun cs) (begun' cs) := by
    dsimp only [begun, begun']
    refine (number_moves _ _).bindPlain fun r => ?_
    split
    · refine (number_moves _ _).bindPlain fun r => ?_
      exact (Moves.pure rfl).bindPlain hwritten
    · exact (Moves.pure rfl).bindPlain hwritten
  have refused (e : Fault) : Moves ρ id (MonadExcept.throw e >>= begun) (MonadExcept.throw e >>= begun') :=
    Moves.throw.bindPlain hbegun
  split
  · refine Moves.get.bind fun source => ?_
    obtain ⟨rest, keyed, bytes⟩ := source
    cases keyed with
    | none => exact refused _
    | some container =>
      dsimp only [Source.moved, Option.map]
      split
      · exact refused _
      · rename_i k rest' _
        cases container
        case dict p =>
          dsimp only [Value.moved]
          refine Moves.get.bind fun source => ?_
          have key : (if source.bytes then Value.bytes (bytesOf k) else .text (.ofList k)).moved ρ =
              if source.bytes then Value.bytes (bytesOf k) else .text (.ofList k) := by
            split <;> rfl
          have found := Entries.find?_moved ρ (s.dict p)
            (if source.bytes then Value.bytes (bytesOf k) else .text (.ofList k))
          rw [key] at found
          rw [h.dict, Source.moved]
          dsimp only
          rw [found]
          cases (s.dict p).find? (if source.bytes then Value.bytes (bytesOf k) else .text (.ofList k)) with
          | none => exact Moves.throw.bindPlain fun _ => (Moves.pure rfl).bindPlain hbegun
          | some v =>
            refine Moves.bindPlain (fun _ => rfl) fun _ => (Moves.pure rfl).bindPlain hbegun
        all_goals exact Moves.throw.bindPlain fun _ => (Moves.pure rfl).bindPlain hbegun
  · exact (Moves.pure rfl).bindPlain hbegun

theorem fill_moves (h : ρ.Fits s s') : ∀ (n : Nat) (cs : List Char), Moves ρ id (fill s n cs) (fill s' n cs)
  | 0, _ => .pure rfl
  | _ + 1, [] => .pure rfl
  | n + 1, c :: cs => by
    unfold fill
    refine .ite ?_ ?_
    · refine (directive_moves h cs).bindPlain fun r => ?_
      exact (fill_moves h n r.2).bind fun _ => .pure rfl
    · exact (fill_moves h n cs).bind fun _ => .pure rfl

theorem fillAll_moved (h : ρ.Fits s s') (bytes : Bool) (pattern : List Char) (v : Value) :
    fillAll s' bytes pattern (v.moved ρ) = fillAll s bytes pattern v := by
  have filled (source : Source) : (do
      let r ← (fill s' pattern.length pattern).run (source.moved ρ)
      if !r.2.rest.isEmpty && r.2.keyed.isNone then throw Fault.wrongType
      return r.1) = do
      let r ← (fill s pattern.length pattern).run source
      if !r.2.rest.isEmpty && r.2.keyed.isNone then throw Fault.wrongType
      return r.1 := by
    rw [fill_moves h pattern.length pattern source]
    rcases (fill s pattern.length pattern).run source with e | ⟨written, left⟩
    · rfl
    · obtain ⟨rest, keyed, bytes⟩ := left
      cases rest <;> cases keyed <;> rfl
  cases v
  case tuple vs =>
    rw [Value.moved, Value.movedAll_eq_map]
    exact filled ⟨vs, none, bytes⟩
  case dict p => exact filled ⟨[.dict p], some (.dict p), bytes⟩
  case list p => exact filled ⟨[.list p], some (.list p), bytes⟩
  case range a b c => exact filled ⟨[.range a b c], some (.range a b c), bytes⟩
  case bytes bs =>
    cases bytes
    · exact filled ⟨[.bytes bs], some (.bytes bs), false⟩
    · exact filled ⟨[.bytes bs], none, true⟩
  all_goals exact filled ⟨[_], none, bytes⟩

end Percent

theorem Store.fillIn_moved (h : ρ.Fits s s') (pattern : String) (v : Value) :
    s'.fillIn pattern (v.moved ρ) = s.fillIn pattern v := by
  rw [Store.fillIn, Percent.fillAll_moved h, Store.fillIn]

theorem Store.fillInBytes_moved (h : ρ.Fits s s') (pattern : List UInt8) (v : Value) :
    s'.fillInBytes pattern (v.moved ρ) = s.fillInBytes pattern v := by
  rw [Store.fillInBytes, Percent.fillAll_moved h, Store.fillInBytes]

end NestedSite
