import NestedSite.Proofs.Store.Ensures
import NestedSite.Proofs.Store.Reach
import NestedSite.Proofs.Template.CallFree
import NestedSite.Proofs.Template.Evaluate

/-!
# What templates without calls do

Where no value holds a cursor, the cursors that there are belong to the loops that are going on, and nothing but its
own loop moves one. `Region.calm r n` is such a region: the cursors from `n` on may move, and values hold none. A body
is run in the region of the cursors that come after that of its loop, so that it leaves to the loop what it reads
(`Step.forEach_calm`); every item that is taken leaves fewer, and no loop is broken off. So a template without calls
reads attributes, or lacks a rule, and does nothing else (`Looks`, `Template.render_calm`).
-/

namespace NestedSite

open Region (AllowsReads)

/-! ## Regions where no cursor is held -/

/-- The places of a region with the cursors from `n` on, none of which a value holds. -/
def Region.calm (r : Region) (n : Nat) : Region where
  lists := r.lists
  dicts := r.dicts
  sets := r.sets
  cursors p := n ≤ p
  legends := r.legends
  metadata := r.metadata
  held _ := False
  held_cursors _ h := h.elim
  bound _ := True
  bound_safe _ _ := trivial
  floor := r.floor
  helpers := r.helpers

variable {r : Region} {m : Nat}

mutual

/-- For values it does not matter which cursors may move. -/
theorem Value.In.calm (n : Nat) : ∀ {v : Value}, v.In (r.calm m) → v.In (r.calm n)
  | .tuple vs, h => by
    rw [Value.In] at *
    exact Value.AllIn.calm n h
  | .slice .., h => ⟨Value.In.calm n h.1, Value.In.calm n h.2.1, Value.In.calm n h.2.2⟩
  | .method .., h => ⟨Value.In.calm n h.1, h.2⟩
  | .list _, h | .dict _, h | .set _, h | .cursor _, h | .view .., h | .legend _, h | .metadata _, h
  | .helper _, h => h
  | .none, _ | .bool _, _ | .int _, _ | .float _, _ | .complex .., _ | .text _, _ | .bytes _, _ | .date _, _
  | .moment _, _ | .ellipsis, _ | .range .., _ | .builtin _, _ | .foreignType _, _ | .typeMethod .., _
  | .classMethod .., _ | .typeField .., _ => trivial

theorem Value.AllIn.calm (n : Nat) : ∀ {vs : List Value}, Value.AllIn (r.calm m) vs → Value.AllIn (r.calm n) vs
  | [], _ => trivial
  | _ :: _, h => ⟨Value.In.calm n h.1, Value.AllIn.calm n h.2⟩

end

theorem FieldsIn.calm (n : Nat) {fields : List (String × Value)} (h : FieldsIn (r.calm m) fields) :
    FieldsIn (r.calm n) fields := fun f hf => (h f hf).calm n

/-- The cursors that are in use may be left out. -/
theorem Region.Holds.calm {s : Store} (h : (r.calm m).Holds s) : (r.calm s.cursors.size).Holds s where
  lists p hp v hv := (h.lists p hp v hv).calm _
  dicts p hp e he := ⟨(h.dicts p hp e he).1.calm _, (h.dicts p hp e he).2.calm _⟩
  sets p hp v hv := (h.sets p hp v hv).calm _
  cursors p (hp : s.cursors.size ≤ p) := by simp [Store.cursor, hp, Cursor.In]
  legends p hp := ⟨(h.legends p hp).extras.calm _⟩
  metadata p hp := ⟨(h.metadata p hp).files, (h.metadata p hp).extras.calm _⟩
  freeLists := h.freeLists
  freeDicts := h.freeDicts
  freeSets := h.freeSets
  freeCursors _ hp := hp
  freeLegends := h.freeLegends
  freeMetadata := h.freeMetadata
  floor := h.floor

/-! ## Looking -/

/-- The deed reads an attribute, or lacks a rule. -/
def Deed.IsLook : Deed → Prop
  | .read .. | .lack _ => True
  | _ => False

/-- Nothing is changed but cursors of the region, and nothing is done but looking. -/
structure Looks (r : Region) (w w' : World) : Prop where
  reads : r.Reads w { w' with deeds := w.deeds }
  deeds : ∃ new, w'.deeds = new ++ w.deeds ∧ ∀ d ∈ new, d.IsLook

namespace Looks

variable {w w' : World}

/-- What counts as a deed does not matter for the store. -/
theorem reads_withDeeds {w w' : World} (h : r.Reads w w') (deeds : List Deed) :
    r.Reads { w with deeds } { w' with deeds } := { h with deeds := rfl }

instance (r : Region) : AllowsReads r (Looks r) where
  refl w := ⟨.refl r w, [], rfl, by simp⟩
  trans := by
    rintro a b c ⟨hreads, first, hfirst, hlooks⟩ ⟨hreads', second, hsecond, hlooks'⟩
    refine ⟨hreads.trans (reads_withDeeds hreads' a.deeds), second ++ first, ?_, fun d hd => ?_⟩
    · rw [hsecond, hfirst, List.append_assoc]
    · exact (List.mem_append.1 hd).elim (hlooks' d) (hlooks d)
  reads _ h := ⟨{ h with deeds := rfl }, [], h.deeds, by simp⟩

theorem record_confined {d : Deed} (h : d.IsLook) : Confined r (Looks r) (Run.record d) fun _ => True :=
  Run.step_confined (fun _ => rfl) fun w hw => ⟨⟨.refl r w, [d], rfl, by simpa using h⟩, hw, trivial⟩

end Looks

/-! ## Cursors -/

/-- The cursor goes through no other cursors. -/
def Cursor.Direct : Cursor → Prop
  | enumerate .. | zip .. => False
  | _ => True

/-- The cursor is direct, and what it reads from is in use. -/
def Cursor.Steady (s : Store) : Cursor → Prop
  | list p _ | listBack p _ => p < s.lists.size
  | dict _ p _ _ | dictBack _ p _ _ => p < s.dicts.size
  | enumerate .. | zip .. => False
  | _ => True

theorem Cursor.Steady.direct {s : Store} {c : Cursor} (h : c.Steady s) : c.Direct := by cases c <;> trivial

/-- Where lists and mappings stay as they are, so does what there is left of a cursor. -/
theorem Looks.left_eq {w w' : World} (h : Looks r w w') {c : Cursor} (hc : c.Steady w.store) :
    c.left w'.store = c.left w.store := by
  cases c with
  | list p next => exact congrArg (fun vs => List.length vs - next) (h.reads.lists p hc)
  | dict kind p next size => exact congrArg (fun es => List.length es - next) (h.reads.dicts p hc)
  | _ => rfl

theorem Looks.steady {w w' : World} (h : Looks r w w') {c : Cursor} (hc : c.Steady w.store) : c.Steady w'.store := by
  cases c with
  | list | listBack => exact Nat.lt_of_lt_of_le hc h.reads.lists_le
  | dict | dictBack => exact Nat.lt_of_lt_of_le hc h.reads.dicts_le
  | _ => exact hc

theorem lt_size_of_list {s : Store} {p k : Nat} {v : Value} (h : (s.list p)[k]? = some v) : p < s.lists.size := by
  refine Nat.lt_of_not_le fun hle => ?_
  simp [Store.list, hle] at h

theorem lt_size_of_view {s : Store} {p k : Nat} {kind : ViewKind} {v : Value}
    (h : ((s.dict p).view kind)[k]? = some v) : p < s.dicts.size := by
  refine Nat.lt_of_not_le fun hle => ?_
  cases kind <;> simp [Store.dict, hle, Entries.view, Entries.keys, Entries.values, Entries.items] at h

theorem Entries.length_view (es : Entries) (kind : ViewKind) : (es.view kind).length = es.length := by
  cases kind <;> simp [Entries.view, Entries.keys, Entries.values, Entries.items]

@[simp] theorem Cursor.left_cursors {s : Store} {cursors : Array Cursor} (c : Cursor) :
    c.left { s with cursors } = c.left s := by cases c <;> rfl

@[simp] theorem Cursor.steady_cursors {s : Store} {cursors : Array Cursor} {c : Cursor} :
    c.Steady { s with cursors } ↔ c.Steady s := by cases c <;> rfl

/-- The cursor at a place was asked for an item: one that is taken leaves fewer, and comes from what is in use. -/
def Asked (place : Nat) (w : World) (v : Option Value) (w' : World) : Prop :=
  w'.store.cursors.size = w.store.cursors.size ∧ (v.isSome = true →
    (w'.store.cursor place).Steady w'.store ∧ (w'.store.cursor place).left w'.store < (w.store.cursor place).left w.store)

namespace Run

/-- What is opened on a value that is no cursor is a new cursor, which goes through no others. -/
theorem cursor_ensures {v : Value} (hv : ∀ p, v ≠ .cursor p) (w : World) : (cursor v).Ensures w fun p w' =>
    p < w'.store.cursors.size ∧ (w'.store.cursor p).Direct := by
  have opened {c : Cursor} (hc : c.Direct) (w : World) : (newCursor c).Ensures w fun p w' =>
      p < w'.store.cursors.size ∧ (w'.store.cursor p).Direct := by
    refine .step rfl ⟨by simp, ?_⟩
    rw [Store.cursor_push, if_pos rfl]
    exact hc
  cases v
  case cursor p => exact absurd rfl (hv p)
  case list | tuple | text | bytes | range =>
    refine opened ?_ w
    trivial
  case dict | view | set | legend | metadata =>
    refine .step_bind rfl (opened ?_ w)
    trivial
  all_goals exact .throw

theorem left_ensures (place : Nat) (w : World) : (left place).Ensures w fun n w' =>
    w' = w ∧ n = (w.store.cursor place).left w.store := .step rfl ⟨rfl, rfl⟩

theorem next?_ensures {place : Nat} {w : World} (hp : place < w.store.cursors.size)
    (hc : (w.store.cursor place).Direct) : (next? place).Ensures w (Asked place w) := by
  -- a cursor that has come to its end, and one that goes on as `c` with the item `v`
  have ended (type : String) : (do setCursor place (.done type); pure none).Ensures w (Asked place w) :=
    .step rfl ⟨by simp, nofun⟩
  have goesOn {c : Cursor} {v : Value} (hsteady : c.Steady w.store)
      (hleft : c.left w.store < (w.store.cursor place).left w.store) :
      (do setCursor place c; pure (some v)).Ensures w (Asked place w) := by
    refine .step rfl ⟨by simp, fun _ => ?_⟩
    rw [Store.cursor_setIfInBounds, if_pos ⟨rfl, hp⟩, Cursor.steady_cursors, Cursor.left_cursors]
    exact ⟨hsteady, hleft⟩
  have nothing : Ensures (pure none) w (Asked place w) := .pure ⟨rfl, nofun⟩
  show (nextTo? (999 + 1) place).Ensures w (Asked place w)
  unfold nextTo?
  refine .step_bind rfl ?_
  dsimp only
  cases hcursor : w.store.cursor place <;> rw [hcursor] at hc goesOn
  case list p k =>
    dsimp only
    split
    · rename_i v hv
      have hk := (List.getElem?_eq_some_iff.1 hv).1
      exact goesOn (lt_size_of_list hv) (by simp only [Cursor.left]; omega)
    · exact ended _
  case listBack p left =>
    cases left with
    | zero => exact ended _
    | succ k =>
      dsimp only
      split
      · rename_i v hv
        exact goesOn (lt_size_of_list hv) (Nat.lt_succ_self k)
      · exact ended _
  case dict kind p k size =>
    dsimp only
    split
    · exact .bind (Q := fun _ _ => False) .throw fun _ _ h => h.elim
    · split
      · rename_i v hv
        have hk := (List.getElem?_eq_some_iff.1 hv).1
        rw [Entries.length_view] at hk
        exact goesOn (lt_size_of_view hv) (by simp only [Cursor.left]; omega)
      · exact ended _
  case dictBack kind p left size =>
    dsimp only
    split
    · exact .bind (Q := fun _ _ => False) .throw fun _ _ h => h.elim
    · cases left with
      | zero => exact ended _
      | succ k =>
        dsimp only
        split
        · rename_i v hv
          exact goesOn (lt_size_of_view hv) (Nat.lt_succ_self k)
        · exact ended _
  case range next step left =>
    cases left with
    | zero => exact nothing
    | succ k => exact goesOn trivial (Nat.lt_succ_self k)
  case items type rest =>
    cases rest with
    | nil => exact nothing
    | cons v rest => exact goesOn trivial (Nat.lt_succ_self rest.length)
  case enumerate => exact hc.elim
  case zip => exact hc.elim
  case done => exact nothing

end Run

/-! ## Loops -/

namespace Template

namespace Step

variable {body : Value → Step Unit}
  (hb : ∀ n v, v.In (r.calm n) → Step.Confined (r.calm n) (Looks (r.calm n)) (body v) fun _ => True)

include hb

theorem forEach_calm {cursor n : Nat} (hn : n ≤ cursor) : ∀ (fuel : Nat) (looped : Bool) {w : World} {p : Progress},
    (r.calm n).Holds w.store → FieldsIn (r.calm n) p.locals → cursor < w.store.cursors.size →
    (w.store.cursor cursor).Direct → (w.store.cursor cursor).left w.store < fuel →
    ConfinedAt (r.calm n) (Looks (r.calm n)) ((forEach cursor body fuel looped).run p) w
      fun x _ => FieldsIn (r.calm n) x.2.locals
  | 0, _, _, _, _, _, _, _, hleft => absurd hleft (Nat.not_lt_zero _)
  | fuel + 1, looped, w, p, hw, hp, hsize, hdirect, hleft => by
    rw [forEach, StateT.run_bind, StateT.run_monadLift, bind_assoc]
    simp only [pure_bind]
    refine (((Run.next?_confined hn).at hw).and (Run.next?_ensures hsize hdirect)).bind ?_
    rintro v w₁ hw₁ ⟨hv, hsize₁, hstep⟩
    cases v with
    | none => exact .pure hw₁ hp
    | some v =>
      obtain ⟨hsteady, hless⟩ := hstep rfl
      dsimp only
      rw [StateT.run_bind]
      -- the body is run in the region of the cursors to come, too: so it leaves the cursor of the loop where it is
      have hspares := ((hb w₁.store.cursors.size v ((hv v rfl).calm _) p (hp.calm _)).at hw₁.calm).related
      refine (((hb n v (hv v rfl) p hp).at hw₁).and hspares).bind ?_
      rintro ⟨_, p₂⟩ w₂ hw₂ ⟨⟨-, hp₂⟩, hlooks⟩
      have hlt : cursor < w₁.store.cursors.size := hsize₁ ▸ hsize
      have hsame : w₂.store.cursor cursor = w₁.store.cursor cursor :=
        hlooks.reads.cursors cursor (Nat.not_le_of_lt hlt)
      refine forEach_calm hn fuel true hw₂ hp₂ (Nat.lt_of_lt_of_le hlt hlooks.reads.cursors_le) ?_ ?_
      · exact hsame ▸ hsteady.direct
      · rw [hsame, hlooks.left_eq hsteady]
        omega

/-- A loop comes to its end. -/
theorem forAll_calm (n : Nat) {v : Value} (hv : v.In (r.calm n)) :
    Step.Confined (r.calm n) (Looks (r.calm n)) (forAll v body) fun _ => True := by
  intro p hp
  have hcursor : ∀ q, v ≠ .cursor q := by
    rintro q rfl
    exact hv
  refine ConfinedAt.confined fun w hw => ?_
  unfold forAll
  rw [StateT.run_bind, StateT.run_monadLift, bind_assoc]
  simp only [pure_bind]
  refine (((Run.cursor_confined hv).at hw).and (Run.cursor_ensures hcursor w)).bind ?_
  rintro q w₁ hw₁ ⟨hq, hsize, hdirect⟩
  rw [StateT.run_bind, StateT.run_monadLift, bind_assoc]
  simp only [pure_bind]
  refine ((left_confined.at hw₁).and (Run.left_ensures q w₁)).bind ?_
  rintro left w₂ hw₂ ⟨-, rfl, rfl⟩
  have hfuel : (w₂.store.cursor q).left w₂.store < (w₂.store.cursor q).left w₂.store + sizeLimit := by
    have : 0 < sizeLimit := by decide
    omega
  obtain ⟨hrel, hholds, hres⟩ := forEach_calm hb hq _ false hw₂ hp hsize hdirect hfuel
  exact ⟨hrel, hholds, hres.mono fun _ _ h => ⟨trivial, h⟩⟩

end Step

/-! ## Templates -/

/-- What expressions without faults and without calls do. -/
theorem Expr.lets_callFree {host : Host} :
    Expr.Lets r (Looks r) host fun e => e.faults = [] ∧ e.callFree = true where
  parts h p hp := ⟨Expr.faults_part h.1 p hp, Expr.all_part h.2 p hp⟩
  attributes _ _ := Looks.record_confined trivial
  calls h := by simp [Expr.all, Expr.isCall] at h
  gaps _ _ _ := Looks.record_confined trivial

end Template

/-- A template without calls does nothing but look. -/
theorem Template.render_calm (host : Host) {n : Nat} {base : Template.Bindings} (hb : FieldsIn (r.calm n) base)
    {context : Option Nat} (hc : ∀ p ∈ context, r.dicts p) {t : Template} (ht : t.Accepted)
    (hfree : t.callFree = true) :
    Confined (r.calm n) (Looks (r.calm n)) (t.render host base context) fun _ => True := by
  have hs : Step.Lawful r.calm (fun n => Looks (r.calm n)) (fun e => e.faults = [] ∧ e.callFree = true)
      ⟨host, context, base⟩ :=
    { expressions := fun _ => Expr.lets_callFree
      context := fun _ => hc
      base := fun n => hb.calm n
      loops := fun hb n _ hv => Step.forAll_calm hb n hv }
  have hblocks : AllOf (fun e => e.faults = [] ∧ e.callFree = true) t.blocks := by
    simpa only [forall_const] using AllOf.and (p := fun _ : Unit => fun e => !e.isCall) ht fun _ => hfree
  exact renderOf_confined hs hblocks n

end NestedSite
