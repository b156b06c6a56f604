import NestedSite.Proofs.Store.Region
import NestedSite.Yaml.Scalar

/-!
# The faults of scalars

The value of a scalar is a datum of its tag, or there is a fault that tells what its text lacks: a number without digits
or with wrong ones, a word that is no truth value, a time that is none. Only for bytes the fault is that of a malformed
document.
-/

namespace NestedSite

/-- A value that a document can write: nothing that goes on, such as a cursor, nothing to be called, and no record. -/
inductive Value.IsDatum : Value → Prop
  | none : IsDatum .none
  | bool (b : Bool) : IsDatum (.bool b)
  | int (n : Int) : IsDatum (.int n)
  | float (x : Float) : IsDatum (.float x)
  | text (t : String) : IsDatum (.text t)
  | bytes (bs : List UInt8) : IsDatum (.bytes bs)
  | date (d : Date) : IsDatum (.date d)
  | moment (m : Moment) : IsDatum (.moment m)
  | list (p : Nat) : IsDatum (.list p)
  | dict (p : Nat) : IsDatum (.dict p)
  | set (p : Nat) : IsDatum (.set p)
  | tuple {vs : List Value} (h : ∀ v ∈ vs, IsDatum v) : IsDatum (.tuple vs)

/-- A datum that leads nowhere. -/
structure Value.IsScalar (v : Value) : Prop where
  datum : v.IsDatum
  free : ∀ r, v.In r

namespace Yaml

/-! ## Faults -/

/-- Faults of reading a document that are not those of a malformed one. -/
inductive Escaping : Fault → Prop
  | tooDeep : Escaping .tooDeep
  | overflow : Escaping .overflow
  | badValue : Escaping .badValue
  | missingKey : Escaping .missingKey
  | missingIndex : Escaping .missingIndex
  | missingAttribute : Escaping .missingAttribute
  | wrongType : Escaping .wrongType

/-- Faults of reading a document. -/
def Known (f : Fault) : Prop := f = .malformedYaml ∨ Escaping f

/-- There is a result that satisfies `Q`, or a known fault. -/
inductive Ends {α : Type} (Q : α → Prop) : Except Fault α → Prop
  | ok {a : α} (h : Q a) : Ends Q (.ok a)
  | error {f : Fault} (h : Known f) : Ends Q (.error f)

namespace Ends

variable {α β : Type} {Q : α → Prop} {R : β → Prop} {x y : Except Fault α} {f : α → Except Fault β}

theorem pure {a : α} (h : Q a) : Ends Q (Pure.pure a) := .ok h

theorem throw {e : Fault} (h : Known e) : Ends Q (MonadExcept.throw e) := .error h

theorem bind (h : Ends Q x) (k : ∀ a, Q a → Ends R (f a)) : Ends R (x >>= f) := by
  cases h with
  | ok h => exact k _ h
  | error h => exact .error h

theorem ite {c : Prop} [Decidable c] (h : Ends Q x) (k : Ends Q y) : Ends Q (if c then x else y) := by
  split
  · exact h
  · exact k

theorem guard {c : Prop} [Decidable c] {e : Fault} (h : Known e) {rest : PUnit → Except Fault α}
    (k : Ends Q (rest ())) : Ends Q (if c then (do let u ← MonadExcept.throw e; rest u) else rest ()) :=
  ite (.error h) k

theorem mapM (h : ∀ a, Ends R (f a)) : ∀ xs : List α, Ends (fun ys => ∀ y ∈ ys, R y) (xs.mapM f)
  | [] => .pure fun _ hy => absurd hy List.not_mem_nil
  | a :: xs => by
    rw [List.mapM_cons]
    exact (h a).bind fun y hy => (mapM h xs).bind fun ys hys => .pure (List.forall_mem_cons.2 ⟨hy, hys⟩)

end Ends

/-! ## Numbers -/

theorem readInt_ends (base : Nat) (text : String) : Ends (fun _ => True) (readInt base text) := by
  have hbadValue : Known .badValue := .inr .badValue
  unfold readInt
  extract_lets cs
  split
  split
  refine .guard hbadValue ?_
  extract_lets base isDigit
  split
  · exact .guard hbadValue (.pure trivial)
  · exact .throw hbadValue

theorem readFloat_ends (text : String) : Ends (fun _ => True) (readFloat text) := by
  unfold readFloat
  extract_lets cs
  split
  extract_lets word result
  have hresult (x : Float) : Ends (fun _ => True) (pure x >>= result) := .pure trivial
  refine .ite (hresult _) (.ite (hresult _) ?_)
  split
  · exact hresult _
  · exact .throw (.inr .badValue)

namespace Scalar

theorem signed_ends (cs : List Char) : Ends (fun _ => True) (signed cs) := by
  unfold signed
  split
  · exact .throw (.inr .missingIndex)
  · exact .pure trivial
  · exact .pure trivial
  · exact .pure trivial

theorem int_ends (text : String) : Ends (fun _ => True) (int text) := by
  refine (signed_ends _).bind fun sign _ => ?_
  split
  extract_lets result
  have hresult (n : Int) (_ : True) : Ends (fun _ => True) (result n) := .pure trivial
  clear_value result
  split
  · exact .throw (.inr .missingIndex)
  · exact .bind (.pure trivial) hresult
  · exact (readInt_ends _ _).bind hresult
  · exact (readInt_ends _ _).bind hresult
  · exact (readInt_ends _ _).bind hresult
  · refine .ite ?_ ((readInt_ends _ _).bind hresult)
    exact (Ends.mapM (readInt_ends 10) _).bind fun _ _ => .bind (.pure trivial) hresult

theorem float_ends (text : String) : Ends (fun _ => True) (float text) := by
  refine (signed_ends _).bind fun sign _ => ?_
  split
  extract_lets result
  have hresult (x : Float) (_ : True) : Ends (fun _ => True) (result x) := .pure trivial
  clear_value result
  refine .ite (.bind (.pure trivial) hresult) <| .ite (.bind (.pure trivial) hresult) <| .ite ?_ ?_
  · rw [map_eq_pure_bind, bind_assoc]
    exact (Ends.mapM readFloat_ends _).bind fun _ _ => .bind (.pure trivial) hresult
  · exact (readFloat_ends _).bind hresult

/-! ## Other scalars -/

theorem bool_ends (text : String) : Ends (fun _ => True) (bool text) :=
  .ite (.pure trivial) (.ite (.pure trivial) (.throw (.inr .missingKey)))

theorem binary_ends (text : String) : Ends (fun _ => True) (binary text) := by
  unfold binary
  split
  · exact .ite (.pure trivial) (.throw (.inl rfl))
  · exact .throw (.inl rfl)

theorem timestamp_ends (text : String) : Ends Value.IsScalar (timestamp text) := by
  have hbadValue : Known .badValue := .inr .badValue
  unfold timestamp
  split
  · exact .throw (.inr .missingAttribute)
  · next group =>
    have hmoment (m : Moment) (ahead : Int) :
        Ends Value.IsScalar (if m.isValid && ahead < 86400 then return .moment m else throw .badValue) :=
      .ite (.pure ⟨.moment m, fun _ => trivial⟩) (.throw hbadValue)
    exact .ite (.ite (.pure ⟨.date _, fun _ => trivial⟩) (.throw hbadValue)) (hmoment _ _)

end Scalar

end Yaml

end NestedSite
