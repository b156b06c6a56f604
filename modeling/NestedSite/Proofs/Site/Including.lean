import NestedSite.Proofs.Site.Content
import NestedSite.Proofs.Site.Sandbox
import NestedSite.Proofs.Template.Mention

/-!
# Including a part of a page

A part of a page is rendered with a copy of the context that is handed over. The copy holds what the context holds, the
context itself among it under the key `$`; but that key is bound to the copy before a template is rendered, so from then
on the context is reached just if it is reached from something else that it holds, or from what the engine holds
(`Engine.prepared_holds`). A rendering writes to nothing else (`Region.Avoids`), so that it leaves the context as it is
(`Engine.renderPartial_keeps`).
-/

namespace NestedSite

open Region (AllowsReads)
open Template (AllowsTemplates)

/-! ## Entries besides the one under a key -/

namespace Entries

variable {es : Entries}

/-- The entries without the first one under a text. -/
def besides (es : Entries) (key : String) : Entries := es.eraseP fun e => e.1.sameKey (.text key)

theorem besides_cons (first : Value × Value) (rest : Entries) (key : String) :
    besides (first :: rest) key = if first.1.sameKey (.text key) then rest else first :: rest.besides key := by
  unfold besides
  rw [List.eraseP_cons, cond_eq_ite]

/-- Binding a text puts one entry in the place of the one that was there. -/
theorem mem_insert_besides {key : String} {v : Value} {e : Value × Value} (h : e ∈ es.insert (.text key) v) :
    e = (.text key, v) ∨ e ∈ es.besides key := by
  induction es with
  | nil => exact .inl (List.mem_singleton.1 h)
  | cons first rest ih =>
    obtain ⟨k, u⟩ := first
    unfold insert at h
    rw [besides_cons]
    split at h
    · rename_i hsame
      obtain rfl := Value.sameKey_text.1 hsame
      rw [if_pos hsame]
      exact List.mem_cons.1 h
    · rename_i hother
      rw [if_neg hother]
      rcases List.mem_cons.1 h with rfl | h
      · exact .inr List.mem_cons_self
      · exact (ih h).imp_right (List.mem_cons_of_mem _)

/-- Binding another text adds one entry at most. -/
theorem mem_besides_insert {key other : String} {v : Value} {e : Value × Value}
    (h : e ∈ (es.insert (.text other) v).besides key) : e = (.text other, v) ∨ e ∈ es.besides key := by
  induction es with
  | nil =>
    have hinserted : e ∈ insert [] (.text other) v := List.mem_of_mem_eraseP h
    exact (mem_insert hinserted).imp_right fun h => absurd h List.not_mem_nil
  | cons first rest ih =>
    obtain ⟨k, u⟩ := first
    unfold insert at h
    split at h
    · obtain rfl := Value.sameKey_text.1 ‹_›
      rw [besides_cons] at h ⊢
      split at h
      · rw [if_pos ‹_›]
        exact .inr h
      · rw [if_neg ‹_›]
        exact (List.mem_cons.1 h).imp_right (List.mem_cons_of_mem _)
    · rw [besides_cons] at h ⊢
      split at h
      · rw [if_pos ‹_›]
        exact mem_insert h
      · rw [if_neg ‹_›]
        rcases List.mem_cons.1 h with rfl | h
        · exact .inr List.mem_cons_self
        · exact (ih h).imp_right (List.mem_cons_of_mem _)

/-- The keys and values of entries. -/
def contents (es : Entries) : List Value := es.flatMap fun e => [e.1, e.2]

theorem contents_in {r : Region} (h : ∀ v ∈ es.contents, v.In r) : es.In r := fun e he =>
  ⟨h e.1 (List.mem_flatMap.2 ⟨e, he, by simp⟩), h e.2 (List.mem_flatMap.2 ⟨e, he, by simp⟩)⟩

end Entries

/-! ## A context that is not prepared yet -/

namespace World

theorem withDict_withDict (w : World) (place : Nat) (es es' : Entries) :
    (w.withDict place es).withDict place es' = w.withDict place es' := by
  simp [withDict, Array.setIfInBounds_setIfInBounds]

/-- The region holds but for the mapping at a place, where only the value of a key may lie outside of it. -/
structure HoldsBesides (r : Region) (key : String) (place : Nat) (w : World) : Prop where
  present : place < w.store.dicts.size
  others : r.Holds (w.withDict place []).store
  entries : ((w.store.dict place).besides key).In r

theorem dict_withEntry_of_ne {w : World} {place p : Nat} (hp : p ≠ place) (key : String) (v : Value) :
    (w.withEntry place key v).store.dict p = w.store.dict p := by
  rw [withEntry, dict_withDict, if_neg fun h => hp h.1]

/-- Preparing a context leaves the other mappings as they are. -/
theorem dict_prepared_of_ne {w : World} {place p : Nat} (hp : p ≠ place) :
    (w.prepared place).store.dict p = w.store.dict p := by
  have htext : ∀ (u : World) key, (u.withText place key).store.dict p = u.store.dict p := by
    intro u key
    unfold withText
    split
    · rfl
    · exact dict_withEntry_of_ne hp key _
  rw [prepared, dict_withEntry_of_ne hp, htext, htext]

namespace HoldsBesides

variable {r : Region} {key : String} {place : Nat} {w : World}

theorem withEntry (h : w.HoldsBesides r key place) (other : String) {v : Value} (hv : v.In r) :
    (w.withEntry place other v).HoldsBesides r key place where
  present := by simpa using h.present
  others := by
    unfold World.withEntry
    rw [withDict_withDict]
    exact h.others
  entries := by
    unfold World.withEntry
    rw [dict_withDict, if_pos ⟨rfl, h.present⟩]
    intro e he
    rcases Entries.mem_besides_insert he with rfl | he
    · exact ⟨Value.in_text, hv⟩
    · exact h.entries e he

theorem withText (h : w.HoldsBesides r key place) (other : String) :
    (w.withText place other).HoldsBesides r key place := by
  unfold World.withText
  split
  · exact h
  · exact h.withEntry other Value.in_text

/-- The region holds once the key is bound to a value of the region. -/
theorem holds (h : w.HoldsBesides r key place) {v : Value} (hv : v.In r) : r.Holds (w.withEntry place key v).store := by
  unfold World.withEntry
  rw [← withDict_withDict w place []]
  refine h.others.setDict fun e he => ?_
  rcases Entries.mem_insert_besides he with rfl | he
  · exact ⟨Value.in_text, hv⟩
  · exact h.entries e he

theorem prepared (h : w.HoldsBesides r selfKey place) (hp : r.dicts place) : r.Holds (w.prepared place).store :=
  ((h.withText contentKey).withText titleKey).holds (v := .dict place) hp

end HoldsBesides

/-- The world with a copy of the entries of a mapping at a new place. -/
def withCopy (w : World) (place : Nat) : World :=
  { w with store := { w.store with dicts := w.store.dicts.push (w.store.dict place) } }

theorem dict_withCopy {w : World} {place p : Nat} (hp : p < w.store.dicts.size) :
    (w.withCopy place).store.dict p = w.store.dict p := by
  unfold withCopy
  rw [Store.dict_push, if_neg (Nat.ne_of_lt hp)]

/-- A copy holds what the mapping holds. -/
theorem withCopy_holdsBesides {r : Region} {w : World} {key : String} {place : Nat} (hr : r.Holds w.store)
    (h : ((w.store.dict place).besides key).In r) :
    (w.withCopy place).HoldsBesides r key w.store.dicts.size where
  present := by simp [withCopy]
  others := by
    refine hr.withDicts (by simp [withCopy]) fun p hp => ?_
    have hempty := (w.withCopy place).dict_withDict w.store.dicts.size [] p
    refine (congrArg (Entries.In r) hempty).mpr ?_
    split
    · exact Entries.in_nil
    · rename_i hne
      unfold withCopy
      rw [Store.dict_push, if_neg fun heq => hne ⟨heq, by simp [withCopy]⟩]
      exact hr.dicts p hp
  entries := by
    unfold withCopy
    rw [Store.dict_push, if_pos rfl]
    exact h

end World

/-! ## Parts of a page -/

namespace Engine

variable {r : Region} {R : World → World → Prop} {e : Engine}

/-- Preparing a context first makes it know itself. -/
theorem ensureDefaults_after {α : Type} (path : String) (p : Nat) (rest : Run α) (w : World) :
    (e.ensureDefaults (.text path) (.dict p) >>= fun _ => rest).after w =
      (e.furnish path p >>= fun _ => rest).after (w.prepared p) := by
  rw [ensureDefaults_eq]
  simp only [bind_assoc]
  unfold Run.after
  rw [Run.run_bind, ensureText_run]
  dsimp only
  rw [Run.run_bind, ensureText_run]
  dsimp only
  rw [Run.run_bind, setKey_run]
  rfl

/-- Looking at an argument changes nothing. -/
theorem nonemptyArgument_run (label : String) (v : Value) (w : World) :
    (∃ f, (Run.nonemptyArgument label v).run.run w = (.error f, w)) ∨
      ∃ t, (Run.nonemptyArgument label v).run.run w = (.ok t, w) := by
  cases v with
  | text t =>
    refine (em (t = "")).imp (fun ht => ?_) fun ht => ⟨t, ?_⟩
    · subst ht
      exact ⟨_, rfl⟩
    · rw [nonemptyArgument_text ht]
      rfl
  | _ => exact .inl ⟨_, rfl⟩

/-- A rendering stays in a region that holds as soon as its context knows itself. -/
theorem renderTo_related [AllowsTemplates r R] (he : e.Lawful r) (n : Nat) (path : Value) {p : Nat} {w : World}
    (hp : Fresh r p) (hholds : r.Holds (w.prepared p).store) (hrefl : R w w) (hrel : R w (w.prepared p)) :
    R w ((e.renderTo n path (.dict p)).after w) := by
  cases n with
  | zero => exact hrefl
  | succ n =>
    rw [renderTo_succ]
    rcases nonemptyArgument_run "path" path w with ⟨f, hrun⟩ | ⟨t, hrun⟩
    · unfold Run.after
      rw [Run.run_bind, hrun]
      exact hrefl
    · unfold Run.after
      rw [Run.run_bind, hrun]
      have hrest : Confined r R (e.furnish (Path.normalize t) p >>= fun _ => e.putOut n (Path.normalize t) p)
          (·.In r) := (furnish_confined he.directories hp.writable).seq (putOut_confined he (host_confined he n) _ hp.1)
      exact (congrArg (R w) (ensureDefaults_after _ p _ w)).mpr
        (AllowsReads.trans r hrel (hrest _ hholds).1)

/-- The values that a context holds, apart from what it holds under the key for itself, and those that the engine
holds. -/
def handedOver (e : Engine) (entries : Entries) : List Value :=
  (entries.besides selfKey).contents ++ e.held

/-- A part of a page leaves the context that it is handed as it is, whether it is put out or not, if the context is
reached neither from what it holds besides itself nor from what the engine holds. -/
theorem renderPartial_keeps (he : e.Reached) (path : Value) {context : Nat} {w : World}
    (hcontext : context < w.store.dicts.size)
    (hapart : ¬w.store.Reaches (e.handedOver (w.store.dict context)) (.dict context)) :
    ((e.renderPartial path (.dict context)).after w).store.dict context = w.store.dict context ∧
    ∀ n, (((e.host n).renderPartial path (.dict context)).after w).store.dict context = w.store.dict context := by
  have hhost : ∀ n, (((e.host n).renderPartial path (.dict context)).after w).store.dict context =
      w.store.dict context := by
    intro n
    -- the region is what is reached without the context; the context does not belong to it
    let r := Region.reachedWith (fun _ => True) w.store (e.handedOver (w.store.dict context))
    have hr : r.IsReached w.store (e.handedOver (w.store.dict context)) :=
      Region.reachedWith_isReached fun _ _ => trivial
    have hreached : ∀ v ∈ e.handedOver (w.store.dict context), v.In r := fun v hv => hr.value v (.root hv)
    have hout : ¬r.dicts context := fun h => h.elim hapart (Nat.not_le_of_lt hcontext)
    have hlawful : e.Lawful r :=
      lawful_reachedWith he.lawful.templates fun v hv => .root (List.mem_append_right _ hv)
    have hentries : ((w.store.dict context).besides selfKey).In r := fun entry hentry =>
      Entries.contents_in (fun v hv => hreached v (List.mem_append_left _ hv)) entry hentry
    have hcopy : Fresh r w.store.dicts.size := ⟨.inr (Nat.le_refl _), Nat.le_refl _⟩
    have hholds := (World.withCopy_holdsBesides hr.holds hentries).prepared hcopy.1
    have hprepared : r.Avoids (w.withCopy context) ((w.withCopy context).prepared w.store.dicts.size) := by
      intro p hp _
      exact World.dict_prepared_of_ne (Nat.ne_of_lt hp)
    have hrel := renderTo_related hlawful n path hcopy hholds (fun _ _ _ => rfl) hprepared
    exact (hrel context hcontext hout).trans (World.dict_withCopy hcontext)
  exact ⟨hhost includeLimit, hhost⟩

/-- An engine with one template. -/
def ofPart (imports : Template.Bindings) (t : Template) : Engine :=
  { workDir := "/", root := "/", imports, templates := [("q", t)] }

theorem reached_ofPart (imports : Template.Bindings) {source : String} {t : Template}
    (ht : Template.compile source = .ok t) : (ofPart imports t).Reached := by
  have hrelative : Path.relativeTo "/" "/" "q.html" = "q.html" := by decide +kernel
  have hregister := register_template (e := { workDir := "/", root := "/", imports }) "q.html" "q" (by decide)
    (by rw [hrelative]; decide +kernel) (by rw [hrelative]; decide +kernel) ht {}
  exact .register (.new rfl rfl) hregister

/-- A world with one mapping. -/
def withContext (context : Entries) (lists : Array (List Value)) : World := { store := { lists, dicts := #[context] } }

/-- From nothing nothing is reached. -/
theorem not_reaches_nil (s : Store) (v : Value) : ¬s.Reaches [] v := by
  intro h
  induction h with
  | root h => exact List.not_mem_nil h
  | part _ _ ih => exact ih

/-- A part of a page that entitles what it finds under the key for the context itself. -/
theorem renderPartial_keeps_entitled : ∃ t, Template.compile "<< $entitle(\"T\", $) >>" = .ok t ∧
    (((ofPart [] t).renderPartial (.text "q") (.dict 0)).after
      (withContext [(.text "$", .dict 0)] #[])).store.dict 0 = [(.text "$", .dict 0)] := by
  obtain ⟨t, ht⟩ : ∃ t, Template.compile "<< $entitle(\"T\", $) >>" = .ok t :=
    Template.exists_compiled (by decide +kernel)
  have hcontext : 0 < (withContext [(.text "$", .dict 0)] #[]).store.dicts.size := Nat.zero_lt_one
  have hkeeps := renderPartial_keeps (reached_ofPart [] ht) (.text "q") hcontext (not_reaches_nil _ _)
  exact ⟨t, ht, hkeeps.1.trans rfl⟩

/-- It is not enough that the values a context holds besides itself do not lead to it. A part of a page entitles the
context that it finds in a list of the engine, and writes to one through a key that is a method of it. -/
theorem renderPartial_reaches :
    (¬∀ (e : Engine) (path : Value) (context : Nat) (w : World), e.Reached → context < w.store.dicts.size →
      ¬w.store.Reaches ((w.store.dict context).besides selfKey).contents (.dict context) →
        ((e.renderPartial path (.dict context)).after w).store.dict context = w.store.dict context) ∧
    ¬∀ (e : Engine) (path : Value) (context : Nat) (w : World), e.Reached → context < w.store.dicts.size →
      ¬w.store.Reaches (((w.store.dict context).besides selfKey).map Prod.snd ++ e.held) (.dict context) →
        ((e.renderPartial path (.dict context)).after w).store.dict context = w.store.dict context := by
  have hlisted : (Template.compile "<< $entitle(\"T\", xs[0]) >>").toOption.map (fun t =>
      ((((ofPart [("xs", .list 0)] t).renderPartial (.text "q") (.dict 0)).after
        (withContext [] #[[.dict 0]])).store.dict 0).length) = some 1 := by
    decide +kernel
  have hbound : (Template.compile "<< list($)[0](\x7b\"x\": 1\x7d) >>").toOption.map (fun t =>
      ((((ofPart [] t).renderPartial (.text "q") (.dict 0)).after
        (withContext [(.method (.dict 0) "update", .none)] #[])).store.dict 0).length) = some 2 := by
    decide +kernel
  constructor
  · intro hall
    obtain ⟨t, ht, hlength⟩ := exists_ok_of_map hlisted
    rw [hall _ (.text "q") 0 (withContext [] #[[.dict 0]]) (reached_ofPart _ ht) Nat.zero_lt_one
      (not_reaches_nil _ _)] at hlength
    cases hlength
  · intro hall
    obtain ⟨t, ht, hlength⟩ := exists_ok_of_map hbound
    -- the only value besides is `None`, which leads nowhere
    have hnone : ∀ v, (withContext [(.method (.dict 0) "update", .none)] #[]).store.Reaches [.none] v → v = .none := by
      intro v hv
      induction hv with
      | root h => exact List.mem_singleton.1 h
      | part _ hv ih =>
        rw [ih] at hv
        exact absurd hv List.not_mem_nil
    rw [hall _ (.text "q") 0 (withContext [(.method (.dict 0) "update", .none)] #[]) (reached_ofPart [] ht)
      Nat.zero_lt_one fun h => nomatch hnone _ h] at hlength
    cases hlength

end Engine

end NestedSite
