import NestedSite.Method.Call
import NestedSite.Proofs.Method.Record

/-!
# Calls of values of a region

What is called with arguments of a region keeps to the region (`Run.callWith_confined`). Beyond the region it needs
that the relation lets the mapping be written that is altered (`Alters`), that it lets titles be written
(`LetsTitle`), and that the key is confined, if the call takes one (`TakesKey`).

Of its host a call has the directory, and the templates only if it can include one (`Run.call_congr`).
-/

namespace NestedSite

open Region (AllowsReads AllowsEdits)

variable {r : Region} {R : World → World → Prop} {args : Arguments}

/-- Calling the value with these arguments by position may alter the mapping at a place. -/
inductive Alters : Value → List Value → Nat → Prop where
  | bound {p : Nat} {name : String} {vs : List Value} (h : name ∈ alteringDictMethods) :
      Alters (.method (.dict p) name) vs p
  | unbound {p : Nat} {name : String} {vs : List Value} (h : name ∈ alteringDictMethods) :
      Alters (.typeMethod "dict" name) (.dict p :: vs) p

/-- What a call may alter is handed to it. -/
theorem Alters.dicts {f : Value} {vs : List Value} {p : Nat} (h : Alters f vs p) (hf : f.In r)
    (hvs : ∀ v ∈ vs, v.In r) : r.dicts p := by
  cases h with
  | bound _ => exact hf.1
  | unbound _ => exact hvs _ List.mem_cons_self

/-- Calling the value calls the function that is passed to it as `key`. -/
inductive TakesKey : Value → Prop where
  | sorted : TakesKey (.builtin .sorted)
  | min : TakesKey (.builtin .min)
  | max : TakesKey (.builtin .max)
  | bound {p : Nat} : TakesKey (.method (.list p) "sort")
  | unbound : TakesKey (.typeMethod "list" "sort")

/-- The relation lets the title of the mapping at a place be written. -/
def LetsTitle (r : Region) (R : World → World → Prop) (place : Nat) : Prop :=
  ∀ w t, r.Holds w.store → R w (w.withDict place ((w.store.dict place).insert (.text titleKey) (.text t)))

/-- Including a template keeps to the region. -/
def Host.Confined (r : Region) (R : World → World → Prop) (host : Host) : Prop :=
  ∀ path context, path.In r → context.In r → NestedSite.Confined r R (host.renderPartial path context) (·.In r)

namespace Run

/-! ## Sorting -/

theorem mem_mergeSorted {α : Type} {less : α → α → Except Fault Bool} :
    ∀ (n : Nat) (xs ys : List α), Gives (Store.mergeSorted.go less n xs ys) fun zs => ∀ z ∈ zs, z ∈ xs ∨ z ∈ ys
  | _, [], ys => by
    unfold Store.mergeSorted.go
    exact .pure fun z hz => .inr hz
  | _, x :: xs, [] => by
    unfold Store.mergeSorted.go
    exact .pure fun z hz => .inl hz
  | 0, x :: xs, y :: ys => by
    unfold Store.mergeSorted.go
    exact .pure fun z hz => List.mem_append.1 hz
  | n + 1, x :: xs, y :: ys => by
    unfold Store.mergeSorted.go
    refine (Gives.any _).bind fun b _ => .ite ?_ ?_
    · refine (mem_mergeSorted n (x :: xs) ys).bind fun zs hzs => .pure fun z hz => ?_
      rcases List.mem_cons.1 hz with rfl | hz
      · exact .inr List.mem_cons_self
      · exact (hzs z hz).imp_right (List.mem_cons_of_mem _)
    · refine (mem_mergeSorted n xs (y :: ys)).bind fun zs hzs => .pure fun z hz => ?_
      rcases List.mem_cons.1 hz with rfl | hz
      · exact .inl List.mem_cons_self
      · exact (hzs z hz).imp_left (List.mem_cons_of_mem _)

theorem mem_sortBy {α : Type} {less : α → α → Except Fault Bool} :
    ∀ (n : Nat) (xs : List α), Gives (Store.sortBy.go less n xs) fun ys => ∀ y ∈ ys, y ∈ xs
  | 0, _ => .pure fun _ hy => hy
  | n + 1, xs => by
    unfold Store.sortBy.go
    refine .ite (.pure fun _ hy => hy) ?_
    refine (mem_sortBy n _).bind fun as has => (mem_sortBy n _).bind fun bs hbs => ?_
    refine fun zs hzs z hz => ?_
    rcases mem_mergeSorted _ as bs zs hzs z hz with hz | hz
    · exact List.mem_of_mem_take (has z hz)
    · exact List.mem_of_mem_drop (hbs z hz)

/-- Items with their keys. -/
def PairsIn (r : Region) (pairs : List (Value × Value)) : Prop := ∀ p ∈ pairs, p.2.In r

theorem extreme_confined [AllowsReads r R] {op : OrderOp} :
    ∀ {pairs : List (Value × Value)} {best : Value × Value}, best.2.In r → PairsIn r pairs →
      Confined r R (extreme op best pairs) (·.In r)
  | [], _, hb, _ => .pure hb
  | p :: ps, best, hb, h => by
    obtain ⟨hp, hps⟩ := List.forall_mem_cons.1 h
    unfold extreme
    refine (gives_confined fun _ => .any _).bind fun _ _ => .ite (fun _ => ?_) fun _ => ?_
    · exact extreme_confined hp hps
    · exact extreme_confined hb hps

section Keyed

variable {key : Option Callback} (hkey : ∀ f ∈ key, ∀ v, v.In r → Confined r R (f v) fun _ => True)

include hkey

theorem keyed_confined [AllowsReads r R] {items : List Value} (h : ∀ v ∈ items, v.In r) :
    Confined r R (keyed key items) (PairsIn r) := by
  unfold keyed
  split
  · refine .pure fun p hp => ?_
    obtain ⟨v, hv, rfl⟩ := List.mem_map.1 hp
    exact h v hv
  · exact Confined.mapM (Q := fun p : Value × Value => p.2.In r) fun v hv =>
      (hkey _ rfl v (h v hv)).bind fun _ _ => .pure (h v hv)

theorem sortedItems_confined [AllowsReads r R] {down : Bool} {items : List Value} (h : ∀ v ∈ items, v.In r) :
    Confined r R (sortedItems key down items) fun vs => ∀ v ∈ vs, v.In r := by
  refine (keyed_confined hkey h).bind fun pairs hpairs => ?_
  have sorts : ∀ ps : List (Value × Value), Confined r R (read fun s =>
      Store.sortBy (fun x y => s.ordered .lt x.1 y.1) ps) fun qs => ∀ q ∈ qs, q ∈ ps :=
    fun ps => gives_confined fun s => mem_sortBy _ ps
  have items_in : ∀ {qs : List (Value × Value)}, (∀ q ∈ qs, q ∈ pairs) → ∀ v ∈ qs.map Prod.snd, v.In r := by
    intro qs hqs v hv
    obtain ⟨q, hq, rfl⟩ := List.mem_map.1 hv
    exact hpairs q (hqs q hq)
  refine .ite (fun _ => ?_) fun _ => ?_
  · refine (sorts _).bind fun qs hqs => .pure (items_in fun q hq => ?_)
    exact List.mem_reverse.1 (hqs q (List.mem_reverse.1 hq))
  · exact (sorts _).bind fun qs hqs => .pure (items_in hqs)

/-- The extreme of items, or what is given in the place of one if there are none. -/
theorem extremeOr_confined [AllowsReads r R] {op : OrderOp} {items : List Value} (h : ∀ v ∈ items, v.In r)
    {default : Option Value} (hd : ∀ v ∈ default, v.In r) : Confined r R (do
      match ← keyed key items, default with
      | [], some v => return v
      | [], none => throw .badValue
      | x :: rest, _ => extreme op x rest) (·.In r) := by
  refine (keyed_confined hkey h).bind fun pairs hpairs => ?_
  split
  · exact .pure (hd _ rfl)
  · exact .throw
  · obtain ⟨hp, hps⟩ := List.forall_mem_cons.1 hpairs
    exact extreme_confined hp hps

theorem extremeOf_confined [AllowsReads r R] (h : args.In r) {op : OrderOp} :
    Confined r R (extremeOf op key args) (·.In r) := by
  have hdefault : ∀ v ∈ (args.named.find? fun a => a.1 == "default").map Prod.snd, v.In r :=
    fun v hv => h.named.find? hv
  unfold extremeOf
  refine .refuse fun _ => ?_
  dsimp only
  split
  · exact .wrongType_bind
  · rename_i heq
    exact (items_confined (h.positional _ (heq ▸ List.mem_cons_self))).bind fun vs hvs =>
      extremeOr_confined hkey hvs hdefault
  · exact .ite (fun _ => .wrongType_bind) fun _ => extremeOr_confined hkey h.positional hdefault

end Keyed

/-- The key of a call is what is passed as `key`. -/
theorem keyOf_eq {callback : Value → Callback} {f : Callback} (hf : f ∈ keyOf callback args) :
    ∃ k, ("key", k) ∈ args.named ∧ f = callback k := by
  unfold keyOf at hf
  split at hf
  · cases hf
  · cases hf
  · rename_i name k _ heq
    have hname : name = "key" := by simpa using List.find?_some heq
    cases hf
    exact ⟨k, hname ▸ List.mem_of_find?_eq_some heq, rfl⟩

/-! ## Builtin functions and types -/

theorem lengthOf_confined [AllowsReads r R] {v : Value} : Confined r R (lengthOf v) (·.In r) := by
  refine store_confined.bind fun s _ => ?_
  split
  · exact .ite (fun _ => .throw) fun _ => .pure Value.in_int
  · exact .wrongType

theorem makeRange_confined [AllowsReads r R] : Confined r R (makeRange args) (·.In r) := by
  unfold makeRange
  refine .refuse fun _ => (Confined.mapM fun _ _ => expectInt_confined).bind fun ns _ => ?_
  split
  · exact .pure Value.in_range
  · exact .pure Value.in_range
  · exact .ite (fun _ => .throw) fun _ => .pure Value.in_range
  · exact .wrongType

/-- A new cursor as a value. -/
theorem started_confined [AllowsReads r R] [r.Open] {c : Cursor} (h : c.In r) :
    Confined r R (do return Value.cursor (← newCursor c)) (·.In r) :=
  (newCursor_confined h).bind fun p hp => .pure (Region.Open.held p hp)

theorem makeReversed_confined [AllowsReads r R] [r.Open] {v : Value} (h : v.In r) :
    Confined r R (makeReversed v) (·.In r) := by
  have backwards : Confined r R (do return Value.cursor (← newCursor (.items "reversed" (← items v).reverse)))
      (·.In r) :=
    (items_confined h).bind fun vs hvs => started_confined (c := .items "reversed" vs.reverse)
      fun v hv => hvs v (List.mem_reverse.1 hv)
  unfold makeReversed
  split
  · exact (list_confined h).bind fun vs _ => started_confined (c := .listBack _ vs.length) h
  · exact backwards
  · exact backwards
  · exact backwards
  · exact started_confined (c := .range ..) trivial
  · exact (dict_confined h).bind fun es _ => started_confined (c := .dictBack .keys _ es.length es.length) h
  · exact (dict_confined h).bind fun es _ => started_confined (c := .dictBack _ _ es.length es.length) h
  · exact .wrongType

theorem sumOf_confined [AllowsReads r R] (h : args.In r) : Confined r R (sumOf args) (·.In r) := by
  unfold sumOf
  refine (h.assign _).bind fun us hus => ?_
  split
  · rename_i v start
    have hstart : (start.getD (.int 0)).In r := by
      cases start with
      | none => exact Value.in_int
      | some v => exact hus _ (by simp) v rfl
    have total : Confined r R (do (← items v).foldlM (binary .add) (start.getD (.int 0))) (·.In r) :=
      (items_confined (hus _ List.mem_cons_self _ rfl)).bind fun vs hvs =>
        .foldlM hstart fun _ ha u hu => binary_confined ha (hvs u hu)
    dsimp only
    split
    · exact .wrongType_bind
    · exact .wrongType_bind
    · exact total
  · exact .wrongType

theorem absoluteOf_confined [AllowsReads r R] {v : Value} : Confined r R (absoluteOf v) (·.In r) := by
  unfold absoluteOf
  split
  · exact .pure Value.in_int
  · exact .pure Value.in_float
  · exact .pure Value.in_float
  · exact .wrongType

theorem roundOf_confined [AllowsReads r R] (h : args.In r) : Confined r R (roundOf args) (·.In r) := by
  unfold roundOf
  refine (h.assign _).bind fun us _ => ?_
  split
  · extract_lets next
    have hnext : ∀ places, Confined r R (next places) (·.In r) := by
      intro places
      unfold next
      dsimp only
      split
      · split
        · exact .pure Value.in_int
        · exact .throw
      · exact .ite (fun _ => .throw) fun _ => .pure Value.in_float
      · split
        · exact .ite (fun _ => .pure Value.in_int) fun _ => .ite (fun _ => .pure Value.in_int) fun _ =>
            .pure Value.in_int
        · exact .pure Value.in_int
        · exact .wrongType
    split
    · exact hnext none
    · exact hnext none
    · exact expectInt_confined.bind fun n _ => hnext (some n)
  · exact .wrongType

theorem makeText_confined [AllowsReads r R] (h : args.In r) : Confined r R (makeText args) (·.In r) := by
  unfold makeText
  refine (h.assign _).bind fun us hus => ?_
  split
  · exact .pure Value.in_text
  · exact text_confined.bind fun _ _ => .pure Value.in_text
  · split
    · refine callBytes_confined ⟨by simp, fun f hf => ?_⟩
      obtain ⟨⟨k, u⟩, hu, hf⟩ := List.mem_filterMap.1 hf
      obtain ⟨v, rfl, rfl⟩ := Option.map_eq_some_iff.1 hf
      simp only [List.mem_cons, Prod.mk.injEq, List.not_mem_nil, or_false] at hu
      rcases hu with ⟨_, hu⟩ | ⟨_, hu⟩
      · exact hus (some v) (by simp [hu]) v rfl
      · exact hus (some v) (by simp [hu]) v rfl
    · exact .pure Value.in_text
    · exact .wrongType
  · exact .wrongType

theorem makeInt_confined [AllowsReads r R] (h : args.In r) : Confined r R (makeInt args) (·.In r) := by
  have reads : ∀ m : Except Fault Int, Confined r R (do return Value.int (← read fun _ => m)) (·.In r) :=
    fun _ => (gives_confined fun _ => .any _).bind fun _ _ => .pure Value.in_int
  unfold makeInt
  refine (h.assign _).bind fun us _ => ?_
  split
  · exact .pure Value.in_int
  · exact .wrongType
  · split
    · exact reads _
    · exact reads _
    · split
      · exact .pure Value.in_int
      · exact .throw
    · exact expectInt_confined.bind fun _ _ => .pure Value.in_int
  · refine expectInt_confined.bind fun base _ => .guard fun _ => ?_
    split
    · exact reads _
    · exact reads _
    · exact .wrongType_bind
  · exact .wrongType

theorem makeFloat_confined [AllowsReads r R] (h : args.In r) : Confined r R (makeFloat args) (·.In r) := by
  have reads : ∀ m : Except Fault Float, Confined r R (do return Value.float (← read fun _ => m)) (·.In r) :=
    fun _ => (gives_confined fun _ => .any _).bind fun _ _ => .pure Value.in_float
  unfold makeFloat
  refine (h.assign _).bind fun us _ => ?_
  split
  · exact .pure Value.in_float
  · split
    · exact reads _
    · exact reads _
    · exact .pure Value.in_float
    · exact expectInt_confined.bind fun _ _ => reads _
  · exact .wrongType

theorem makeZip_confined [AllowsReads r R] [r.Open] (h : args.In r) : Confined r R (makeZip args) (·.In r) := by
  have together : ∀ strict, Confined r R (do
      return Value.cursor (← newCursor (.zip (← args.positional.mapM cursor) strict))) (·.In r) := fun strict =>
    (Confined.mapM fun v hv => cursor_confined (h.positional v hv)).bind fun ps hps =>
      started_confined (c := .zip ps strict) hps
  unfold makeZip
  refine .refuse fun _ => ?_
  split
  · exact truth_confined.bind fun _ _ => together _
  · exact together _

/-! ## Calls -/

section Call

variable {f : Value} {callback : Value → Callback}

theorem sortingOf_confined [AllowsReads r R] :
    Confined r R (sortingOf callback args) fun s => s.1 = keyOf callback args := by
  refine .refuse fun _ => ?_
  have hdescending : Confined r R (descending args) fun _ => True := by
    unfold descending
    split
    · exact expectInt_confined.bind fun _ _ => .pure trivial
    · exact .pure trivial
  exact hdescending.bind fun _ _ => .pure rfl

/-- The key of a call is confined. -/
def KeyConfined (r : Region) (R : World → World → Prop) (callback : Value → Callback) (args : Arguments) : Prop :=
  ∀ k, ("key", k) ∈ args.named → ∀ v, v.In r → Confined r R (callback k v) fun _ => True

theorem KeyConfined.keyOf (h : KeyConfined r R callback args) :
    ∀ f ∈ keyOf callback args, ∀ v, v.In r → Confined r R (f v) fun _ => True := by
  intro f hf v hv
  obtain ⟨k, hk, rfl⟩ := keyOf_eq hf
  exact h k hk v hv

theorem callBuiltin_confined [AllowsReads r R] [r.Open] (h : args.In r) {b : Builtin}
    (hkey : TakesKey (.builtin b) → KeyConfined r R callback args) :
    Confined r R (callBuiltin callback b args) (·.In r) := by
  unfold callBuiltin
  extract_lets one
  have hone : Confined r R one (·.In r) := by
    refine (h.exactly 1).bind fun vs hvs => ?_
    split
    · exact .pure (hvs _ List.mem_cons_self)
    · exact .wrongType
  split
  · exact hone.bind fun _ _ => lengthOf_confined
  · exact makeRange_confined
  · refine (h.assign _).bind fun us hus => ?_
    split
    · extract_lets next
      have hnext : ∀ start, Confined r R (next start) (·.In r) := fun start =>
        (cursor_confined (hus _ List.mem_cons_self _ rfl)).bind fun p hp =>
          started_confined (c := .enumerate p start) hp
      split
      · exact hnext 0
      · exact expectInt_confined.bind fun n _ => hnext n
    · exact .wrongType
  · split
    · rename_i heq
      refine (items_confined (h.positional _ (heq ▸ List.mem_cons_self))).bind fun vs hvs => ?_
      refine sortingOf_confined.bind fun s hs => ?_
      obtain ⟨key, down⟩ := s
      subst hs
      exact (sortedItems_confined (hkey .sorted).keyOf hvs).bind fun _ hus => newList_confined hus
    · exact .wrongType
  · exact hone.bind fun _ hv => makeReversed_confined hv
  · exact makeZip_confined h
  · exact extremeOf_confined (hkey .min).keyOf h
  · exact extremeOf_confined (hkey .max).keyOf h
  · exact sumOf_confined h
  · exact hone.bind fun _ _ => absoluteOf_confined
  · exact roundOf_confined h
  · exact makeText_confined h
  · exact makeInt_confined h
  · exact makeFloat_confined h
  · refine (h.assign _).bind fun us _ => ?_
    split
    · exact truth_confined.bind fun _ _ => .pure Value.in_bool
    · exact .pure Value.in_bool
  · refine (h.assign _).bind fun us hus => ?_
    split
    · exact (items_confined (hus _ List.mem_cons_self _ rfl)).bind fun _ hvs => newList_confined hvs
    · exact newList_confined (by simp)
  · exact (entriesOfArguments_confined h).bind fun _ hes => newDict_in hes

/-! ## Helpers -/

theorem entitle_confined [AllowsReads r R] (hR : ∀ p, r.dicts p → LetsTitle r R p) {title context : Value} (h : context.In r) :
    Confined r R (entitle title context) (·.In r) := by
  have titles : ∀ (p : Nat) (t : String), r.dicts p → Confined r R (do
      let entries ← dict p
      setDict p (entries.insert (.text titleKey) (.text (Helper.titled t (entries.find? (.text titleKey))))))
      fun _ => True :=
    fun p t hp => step_confined (fun _ => rfl) fun w hw =>
      ⟨hR p hp w _ hw, hw.setDict ((hw.dicts p hp).insert Value.in_text Value.in_text), trivial⟩
  unfold entitle
  split
  · exact .ite (fun _ => (titles _ _ h).seq (.pure Value.in_none)) fun _ => .pure Value.in_none
  · exact .pure Value.in_none

theorem isActive_confined [AllowsReads r R] {cwd : String} {directory context : Value} (h : context.In r) :
    Confined r R (isActive cwd directory context) fun _ => True := by
  unfold isActive
  split
  · refine (dict_confined h).bind fun _ _ => ?_
    split
    · exact .ite (fun _ => .throw) fun _ => .pure trivial
    · exact .pure trivial
  · exact .pure trivial

theorem callHelper_confined [AllowsReads r R] (h : args.In r) {host : Host} (hh : host.Confined r R)
    (hR : ∀ p, r.dicts p → LetsTitle r R p) {helper : Helper} : Confined r R (callHelper host helper args) (·.In r) := by
  unfold callHelper
  split
  · refine (h.assign _).bind fun us hus => ?_
    split
    · rename_i path context
      refine hh _ _ (hus _ List.mem_cons_self _ rfl) ?_
      cases context with
      | none => exact Value.in_none
      | some v => exact hus _ (by simp) v rfl
    · exact .wrongType
  · refine (h.assign _).bind fun us hus => ?_
    split
    · exact entitle_confined hR (hus _ (by simp) _ rfl)
    · exact .wrongType
  · refine (h.assign _).bind fun us hus => ?_
    split
    · exact (isActive_confined (hus _ (by simp) _ rfl)).bind fun _ _ => .pure Value.in_text
    · exact .wrongType
  · refine (h.assign _).bind fun us hus => ?_
    split
    · exact (isActive_confined (hus _ (by simp) _ rfl)).bind fun _ _ => .pure Value.in_text
    · exact .wrongType

/-! ## Methods -/

/-- A method of a value; mappings may be written if the method does so, and the key of a sorting is confined. -/
theorem callMethod_confined [AllowsEdits r R] (h : args.In r) {v : Value} (hv : v.In r) {name : String}
    (hw : ∀ p, v = .dict p → name ∈ alteringDictMethods → LetsWrite r R p)
    (hkey : ∀ p, v = .list p → name = "sort" → KeyConfined r R callback args) :
    Confined r R (callMethod callback v name args) (·.In r) := by
  unfold callMethod
  split
  · exact callText_confined h
  · exact callBytes_confined h
  · exact callInt_confined h
  · exact callInt_confined h
  · exact callFloat_confined h
  · exact (h.exactly 0).discard.seq (.pure Value.in_complex)
  · exact callMoment_confined h
  · exact callMoment_confined h
  · exact callTuple_confined h
  · refine .ite (fun hname => .refuse fun _ => ?_) fun _ => callList_confined h hv
    refine sortingOf_confined.bind fun s hs => ?_
    obtain ⟨key, down⟩ := s
    subst hs
    refine (list_confined hv).bind fun vs hvs => ?_
    refine (sortedItems_confined (hkey _ rfl (beq_iff_eq.1 hname)).keyOf hvs).bind fun us hus => ?_
    exact (setList_confined hv hus).seq (.pure Value.in_none)
  · exact callDict_confined h hv (hw _ rfl)
  · exact callSet_confined h hv
  · exact callRange_confined h hv
  · exact callView_confined h hv
  · exact callLegend_confined h hv
  · exact callMetadata_confined h hv
  · exact .wrongType

/-- Only lists are instances of the type of lists, and only mappings of that of mappings. -/
theorem isInstance_confined [AllowsReads r R] {v : Value} {type : String} :
    Confined r R (isInstance v type) fun b => b = true →
      (∀ p, v = .list p → type = "list") ∧ ∀ p, v = .dict p → type = "dict" := by
  unfold isInstance
  split
  · exact .pure fun _ => ⟨nofun, nofun⟩
  · refine store_confined.bind fun s _ => .pure fun h => ⟨?_, ?_⟩
    · rintro p rfl
      exact (beq_iff_eq.1 h).symm
    · rintro p rfl
      exact (beq_iff_eq.1 h).symm

theorem callTypeMethod_confined [AllowsEdits r R] (h : args.In r) {type name : String}
    (hw : ∀ p, Alters (.typeMethod type name) args.positional p → LetsWrite r R p)
    (hkey : TakesKey (.typeMethod type name) → KeyConfined r R callback args) :
    Confined r R (callTypeMethod callback type name args) (·.In r) := by
  unfold callTypeMethod
  refine .ite (fun _ => TextMethod.table_confined h) fun _ => ?_
  split
  · rename_i v rest heq
    obtain ⟨hv, hrest⟩ := List.forall_mem_cons.1 (heq ▸ h.positional)
    have hargs : Arguments.In r { args with positional := rest } := ⟨hrest, h.named⟩
    refine isInstance_confined.bind fun b hb => .ite (fun hyes => ?_) fun _ => .wrongType
    refine callMethod_confined hargs hv ?_ ?_
    · rintro p rfl hname
      obtain rfl := (hb hyes).2 p rfl
      exact hw p (heq ▸ .unbound hname)
    · rintro p rfl rfl
      obtain rfl := (hb hyes).1 p rfl
      exact hkey .unbound
  · exact .wrongType

theorem callClassMethod_confined [AllowsReads r R] (h : args.In r) {type name : String} :
    Confined r R (callClassMethod type name args) (·.In r) := by
  unfold callClassMethod
  split
  · exact fromKeys_confined h
  · exact .wrongType

theorem callWith_confined [AllowsEdits r R] [r.Open] (h : args.In r) (hf : f.In r) {host : Host} (hh : host.Confined r R)
    (ht : ∀ p, r.dicts p → LetsTitle r R p) (hw : ∀ p, Alters f args.positional p → LetsWrite r R p)
    (hkey : TakesKey f → KeyConfined r R callback args) :
    Confined r R (callWith callback host f args) (·.In r) := by
  unfold callWith
  split
  · exact callBuiltin_confined h hkey
  · exact callHelper_confined h hh ht
  · refine callMethod_confined h hf.1 ?_ ?_
    · rintro p rfl hname
      exact hw p (.bound hname)
    · rintro p rfl rfl
      exact hkey .bound
  · exact callTypeMethod_confined h hw hkey
  · exact callClassMethod_confined h
  · exact .wrongType
  · exact store_confined.bind fun _ _ => .throw

end Call

/-- Where all deeds may be recorded and all mappings of the region written, everything may be called. -/
theorem call_confined_of [AllowsEdits r R] [r.Open] (hrecord : ∀ d, Confined r R (record d) fun _ => True)
    (hwrite : ∀ p, r.dicts p → LetsWrite r R p) {host : Host} (hh : host.Confined r R) {f : Value} (hf : f.In r)
    (ha : args.In r) : Confined r R (call host f args) (·.In r) := by
  have htitle (p : Nat) (hp : r.dicts p) : LetsTitle r R p := fun w _ hw => hwrite p hp w _ hw
  refine (hrecord _).seq (callWith_confined ha hf hh htitle
    (fun p h => hwrite p (h.dicts hf ha.positional)) fun _ k hk v hv => ?_)
  have hargs : Arguments.In r ⟨[v], []⟩ := ⟨by simpa using hv, fun _ h => absurd h List.not_mem_nil⟩
  refine ((hrecord _).seq ?_).trivial (Q := (·.In r))
  refine callWith_confined hargs (ha.named _ hk) hh htitle
    (fun p h => hwrite p (h.dicts (ha.named _ hk) hargs.positional)) ?_
  exact fun _ k hk => absurd hk List.not_mem_nil

/-! ## What a call has of its host -/

section Congr

variable {callback callback' : Value → Callback} {args : Arguments} {host host' : Host}

theorem callBuiltin_congr (h : keyOf callback' args = keyOf callback args) (b : Builtin) :
    callBuiltin callback' b args = callBuiltin callback b args := by
  unfold callBuiltin sortingOf
  rw [h]

theorem callMethod_congr (h : keyOf callback' args = keyOf callback args) (v : Value) (name : String) :
    callMethod callback' v name args = callMethod callback v name args := by
  unfold callMethod sortingOf
  rw [h]

theorem callTypeMethod_congr (h : keyOf callback' args = keyOf callback args) (type name : String) :
    callTypeMethod callback' type name args = callTypeMethod callback type name args := by
  have hrest (rest : List Value) : keyOf callback' { args with positional := rest } =
      keyOf callback { args with positional := rest } := h
  unfold callTypeMethod
  simp only [callMethod_congr (hrest _)]

/-- Only helpers have to do with the host: with its directory, and with its templates if they include one. -/
theorem callWith_congr (hcwd : host'.cwd = host.cwd) (h : keyOf callback' args = keyOf callback args) {f : Value}
    (hf : f ≠ .helper .includePartial) : callWith callback' host' f args = callWith callback host f args := by
  cases f with
  | builtin b => exact callBuiltin_congr h b
  | method v name => exact callMethod_congr h v name
  | typeMethod type name => exact callTypeMethod_congr h type name
  | helper helper =>
    cases helper with
    | includePartial => exact absurd rfl hf
    | entitle => rfl
    | active | act =>
      unfold callWith callHelper
      rw [hcwd]
  | _ => rfl

/-- Where no template can be included, calls have only to do with the directory of their host. -/
theorem call_congr (hcwd : host'.cwd = host.cwd) {r : Region} (hr : ¬r.helpers .includePartial) {f : Value}
    (hf : f.In r) (ha : args.In r) : call host' f args = call host f args := by
  have hne {v : Value} (hv : v.In r) : v ≠ .helper .includePartial := by
    rintro rfl
    exact hr hv
  have hkey : keyOf (callKey host') args = keyOf (callKey host) args := by
    unfold keyOf
    split
    · rfl
    · rfl
    · next k f hnone hfound =>
      have hcallback : callKey host' f = callKey host f := by
        funext v
        unfold callKey
        rw [callWith_congr hcwd rfl (hne (ha.named (k, f) (List.mem_of_find?_eq_some hfound)))]
      rw [hcallback]
  unfold call
  rw [callWith_congr hcwd hkey (hne hf)]

end Congr

end Run

end NestedSite
