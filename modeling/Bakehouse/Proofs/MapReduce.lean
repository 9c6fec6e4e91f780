import Bakehouse.Proofs.CoreFunctions
import Bakehouse.Proofs.EvaluationRules
import Bakehouse.Proofs.Renaming

namespace Bakehouse

abbrev plainFrames : Comparison :=
  uptoFrames (fun f => f.reenters = false) fun _ _ h => h

/-- The frame of a call of `map` or `reduce`: it binds the parameters, and behind it stands a base
frame with the functions of the core prelude. -/
structure InCall (t : Store) (e : FrameId) (bindings : List (Symbol × Value)) : Prop where
  frame : t.scopes.frames[e]? = some ⟨bindings, [baseFrame]⟩
  hidden : ∀ c : CoreName, bindings.lookup c.symbol = none
  core : t.HasCore

namespace Store

theorem HasCore.lt_base {t : Store} (h : t.HasCore) : baseFrame < t.scopes.frames.size := by
  obtain ⟨id, hid⟩ := h .map
  obtain ⟨f, hf, _⟩ := Option.bind_eq_some_iff.mp hid
  exact (Array.getElem?_eq_some_iff.mp hf).1

theorem HasCore.congr {t u : Store} (h : t.HasCore)
    (hbase : u.scopes.frames[baseFrame]? = t.scopes.frames[baseFrame]?) : u.HasCore := by
  intro c
  simp only [Scopes.own?, hbase]
  exact h c

theorem getElem?_entered {t : Store} {i : FrameId} (hi : i < t.scopes.frames.size) (outer : FrameId)
    (params : List Symbol) (args : List Value) :
    (t.entered outer params args).scopes.frames[i]? = t.scopes.frames[i]? := by
  simp only [entered, Array.getElem?_push_lt hi, Array.getElem?_eq_getElem hi]

theorem noReentry_entered {t : Store} (ht : t.NoReentry) (outer : FrameId) (params : List Symbol)
    {args : List Value} (hargs : ∀ v ∈ args, v.NoReentry) :
    (t.entered outer params args).NoReentry := by
  intro f hf
  obtain ⟨g, hg, b, hb, hfb⟩ := mem_natives.mp hf
  simp only [entered, Array.mem_push] at hg
  rcases hg with hg | rfl
  · exact ht f (mem_natives.mpr ⟨g, hg, b, hb, hfb⟩)
  · exact hargs b.2 (List.of_mem_zip hb).2 f hfb

end Store

namespace InCall

variable {t : Store} {e : FrameId} {bindings : List (Symbol × Value)}

theorem congr {u : Store} (h : InCall t e bindings)
    (hframes : ∀ i < t.scopes.frames.size, u.scopes.frames[i]? = t.scopes.frames[i]?) :
    InCall u e bindings where
  frame := by rw [hframes e (Array.getElem?_eq_some_iff.mp h.frame).1, h.frame]
  hidden := h.hidden
  core := h.core.congr (hframes _ h.core.lt_base)

theorem yields_parameter (h : InCall t e bindings) {x : Symbol} {v : Value}
    (hx : bindings.lookup x = some v) : Yields t e (.symbol x) v := by
  refine yields_symbol ?_
  simp only [Scopes.lookup?, Scopes.chain, h.frame, List.findSome?_cons, Scopes.own?,
    Option.bind_some, Frame.get?, hx]

theorem yields_core (h : InCall t e bindings) (c : CoreName) :
    ∃ id, Yields t e (.symbol c.symbol) (c.value id) := by
  obtain ⟨id, hid⟩ := h.core c
  refine ⟨id, yields_symbol ?_⟩
  have hown : t.scopes.own? e c.symbol = none := by
    simp only [Scopes.own?, h.frame, Option.bind_some, Frame.get?, h.hidden]
  simp only [Scopes.lookup?, Scopes.chain, h.frame, List.findSome?_cons, hown, hid]

theorem yields_of_list (h : InCall t e bindings) {xs : List Value}
    (hlis : bindings.lookup CoreName.lis = some (.list xs)) (c : CoreName) {b : Builtin}
    (hc : ∀ id, c.value id = .native id (.builtin b)) {v : Value}
    (hrun : ∀ call, b.run call [.list xs] t = (.ok v, t)) :
    Yields t e (CoreName.call c.symbol [.symbol CoreName.lis]) v := by
  obtain ⟨id, hid⟩ := h.yields_core c
  rw [hc] at hid
  refine yields_builtin ?_ hid (.cons (h.yields_parameter hlis) .nil) hrun
  cases c <;> decide

theorem yields_first (h : InCall t e bindings) {x : Value} {xs : List Value}
    (hlis : bindings.lookup CoreName.lis = some (.list (x :: xs))) :
    Yields t e (CoreName.call CoreName.first.symbol [.symbol CoreName.lis]) x :=
  h.yields_of_list hlis .first (fun _ => rfl) fun _ => rfl

theorem yields_rest (h : InCall t e bindings) {x : Value} {xs : List Value}
    (hlis : bindings.lookup CoreName.lis = some (.list (x :: xs))) :
    Yields t e (CoreName.call CoreName.rest.symbol [.symbol CoreName.lis]) (.list xs) :=
  h.yields_of_list hlis .rest (fun _ => rfl) fun _ => rfl

theorem finishes_choose_iff (h : InCall t e bindings) {xs : List Value}
    (hlis : bindings.lookup CoreName.lis = some (.list xs)) {yes no : Value}
    {o : Except Halt Value × Store} :
    Finishes (fun n => evaluate n (CoreName.choose yes no) e) t o ↔
      Finishes (fun n => evaluate n (if xs.isEmpty then yes else no) e) t o :=
  finishes_conditional_iff (by decide)
    (h.yields_of_list hlis .isEmpty (fun _ => rfl) fun _ => rfl)

end InCall

/-- What holds between the store of the calls alone and the store of `map` or `reduce`. -/
structure Ready (M : Matching) (s t : Store) : Prop where
  renamed : Renamed (fun f => f.reenters = false) M s t
  plain : t.NoReentry
  core : t.HasCore

namespace Ready

variable {M : Matching} {s t : Store}

theorem base_chain (h : Ready M s t) : t.scopes.chain baseFrame = [baseFrame] := by
  have hchain := h.renamed.chain h.renamed.base
  rw [h.renamed.base_chain] at hchain
  generalize t.scopes.chain baseFrame = js at hchain ⊢
  cases hchain with
  | cons hj hrest =>
      cases hrest
      rw [h.renamed.functional hj h.renamed.base]

theorem entered (h : Ready M s t) (params : List Symbol) {args : List Value}
    (hargs : ∀ v ∈ args, v.NoReentry) : Ready M s (t.entered baseFrame params args) where
  renamed := h.renamed.push_right _
  plain := Store.noReentry_entered h.plain _ _ hargs
  core := h.core.congr (Store.getElem?_entered h.core.lt_base _ _ _)

theorem inCall (h : Ready M s t) (params : List Symbol) (args : List Value)
    (hhidden : ∀ c : CoreName, (params.zip args).lookup c.symbol = none) :
    InCall (t.entered baseFrame params args) t.scopes.frames.size (params.zip args) where
  frame := by simp only [Store.entered, Array.getElem?_push_size, h.base_chain]
  hidden := hhidden
  core := h.core.congr (Store.getElem?_entered h.core.lt_base _ _ _)

theorem inMap (h : Ready M s t) (f : Value) (xs : List Value) :
    InCall (t.entered baseFrame [CoreName.f, CoreName.lis] [f, .list xs]) t.scopes.frames.size
      [(CoreName.f, f), (CoreName.lis, .list xs)] :=
  h.inCall [CoreName.f, CoreName.lis] [f, .list xs] fun c => by cases c <;> rfl

theorem inReduce (h : Ready M s t) (f acc : Value) (xs : List Value) :
    InCall (t.entered baseFrame [CoreName.f, CoreName.acc, CoreName.lis] [f, acc, .list xs])
      t.scopes.frames.size [(CoreName.f, f), (CoreName.acc, acc), (CoreName.lis, .list xs)] :=
  h.inCall [CoreName.f, CoreName.acc, CoreName.lis] [f, acc, .list xs] fun c => by cases c <;> rfl

/-- A call of `map` goes on with the branch that fits the list. -/
theorem finishes_map_iff (h : Ready M s t) (f : Value) (xs : List Value) (id : Nat)
    (caller : FrameId) (o : Except Halt Value × Store) :
    Finishes (fun n => apply n (CoreName.map.value id) [f, .list xs] caller) t o ↔
      Finishes (fun n => evaluate n (if xs.isEmpty then CoreName.mapEmpty else CoreName.mapNext)
        t.scopes.frames.size) (t.entered baseFrame [CoreName.f, CoreName.lis] [f, .list xs]) o :=
  (finishes_lambda_iff rfl (by decide)).trans ((h.inMap f xs).finishes_choose_iff rfl)

theorem finishes_reduce_iff (h : Ready M s t) (f acc : Value) (xs : List Value) (id : Nat)
    (caller : FrameId) (o : Except Halt Value × Store) :
    Finishes (fun n => apply n (CoreName.reduce.value id) [f, acc, .list xs] caller) t o ↔
      Finishes (fun n => evaluate n
          (if xs.isEmpty then .symbol CoreName.acc else CoreName.reduceNext) t.scopes.frames.size)
        (t.entered baseFrame [CoreName.f, CoreName.acc, CoreName.lis] [f, acc, .list xs]) o :=
  (finishes_lambda_iff rfl (by decide)).trans ((h.inReduce f acc xs).finishes_choose_iff rfl)

/-- After a call of a function from outside everything is as before. -/
theorem after_apply {N : Matching} {s' t' : Store} (h : Ready M s t)
    (hst : Renamed (fun f => f.reenters = false) N s' t') {f : Value} (hf : f.NoReentry)
    {args : List Value} (hargs : ∀ v ∈ args, v.NoReentry) {caller : FrameId}
    {r : Except Halt Value} (hfin : Finishes (fun n => apply n f args caller) t (r, t')) :
    Ready N s' t' ∧ ∀ i < t.scopes.frames.size, t'.scopes.frames[i]? = t.scopes.frames[i]? := by
  obtain ⟨_, n, hn⟩ := hfin
  have hplain := apply_noReentry n hf hargs caller h.plain
  have hframes := fun i hi => apply_frame_eq (i := i) n hf hargs caller h.plain hi
  simp only at hn
  rw [hn] at hplain hframes
  exact ⟨⟨hst, hplain, h.core.congr (hframes _ h.core.lt_base)⟩, hframes⟩

end Ready

variable {M : Matching} {s t : Store} {f f' : Value}

theorem noReentry_of_vals {vs ws : List Value} (h : plainFrames.Vals M vs ws) :
    ∀ w ∈ ws, w.NoReentry :=
  fun w hw g hg => Value.AllMatch.natives_allowed (Value.AllAgree.allMatch h) g (Value.mem_nativesAll.mpr ⟨w, hw, hg⟩)

/-- Calls of the same function in renamed stores. -/
theorem apply_alike (hst : Renamed (fun f => f.reenters = false) M s t)
    (hf : plainFrames.Val M f f') {args args' : List Value} (hargs : plainFrames.Vals M args args')
    (caller caller' : FrameId) :
    plainFrames.FinishAlike () M plainFrames.Val (fun n => apply n f args caller) s
      (fun n => apply n f' args' caller') t :=
  .of_ends not_false fun n =>
    Comparison.agrees_apply n hf hargs caller caller' () M s t le_rfl hst

theorem map_alike {xs xs' : List Value} (hst : Ready M s t) (hf : plainFrames.Val M f f')
    (hxs : plainFrames.Vals M xs xs') (mapId : Nat) (caller caller' : FrameId) :
    plainFrames.FinishAlike () M (fun N vs w => ∃ ws, w = .list ws ∧ plainFrames.Vals N vs ws)
      (fun n => xs.mapM fun x => apply n f [x] caller) s
      (fun n => apply n (CoreName.map.value mapId) [f', .list xs'] caller') t := by
  induction xs generalizing M s t xs' f' mapId caller' with
  | nil =>
      cases hxs
      refine .congr_right (hst.finishes_map_iff f' [] mapId caller') ?_
      refine .of_finishes (.const _) (steady_evaluate _ _) (Finishes.const (pure []) s nofun)
        yields_quote ?_
      exact .pure (hst.renamed.push_right _) ⟨[], rfl, .nil⟩
  | cons x xs ih =>
      obtain ⟨x', xs', hx, hrest, rfl⟩ := List.forall₂_cons_left_iff.mp hxs
      have hst' := hst.entered [CoreName.f, CoreName.lis]
        (noReentry_of_vals (.cons hf (.cons (.list hxs) .nil)))
      have hin := hst.inMap f' (x' :: xs')
      refine .congr_right (hst.finishes_map_iff f' (x' :: xs') mapId caller') ?_
      obtain ⟨consId, hcons⟩ := hin.yields_core .cons
      refine .congr_right (fun o => finishes_application_iff (by decide) hcons _) ?_
      simp only [List.mapM_cons, List.mapM_nil, bind_assoc, pure_bind]
      -- The function is called on the first item in the store in which the body stands.
      have hcall (o : Except Halt Value × Store) := finishes_call_iff (o := o) (by decide)
        (hin.yields_parameter (x := CoreName.f) rfl) (.cons (hin.yields_first rfl) .nil)
      have hfirst := (apply_alike hst'.renamed hf (.cons hx .nil) caller _).congr_right hcall
      have hsteady := Steady.mapM (fun x => steady_apply f [x] caller) xs
      refine .bind not_false (steady_apply f [x] caller) (steady_evaluate _ _)
        (fun _ => hsteady.bind fun _ => .const _)
        (fun _ => (steady_evaluate _ _).bind fun _ => steady_apply _ _ _) hfirst ?_
      intro N v v' s' t' hMN hv hst'' hfin
      obtain ⟨hready, hframes⟩ := hst'.after_apply hst'' hf.matches.natives_allowed
        (noReentry_of_vals (.cons hx .nil)) ((hcall _).mp hfin)
      -- It has left the frame of the call alone, so the list is gone through further.
      have hin' := hin.congr hframes
      obtain ⟨mapId', hmap⟩ := hin'.yields_core .map
      have hcall' (o : Except Halt Value × Store) := finishes_call_iff (o := o) (by decide) hmap
        (.cons (hin'.yields_parameter (x := CoreName.f) rfl) (.cons (hin'.yields_rest rfl) .nil))
      have hlater := (ih hready (hf.mono hMN) (Value.AllAgree.mono hMN hrest) mapId'
        t.scopes.frames.size).congr_right hcall'
      refine .bind not_false hsteady (steady_evaluate _ _) (fun _ => .const _)
        (fun _ => steady_apply _ _ _) hlater ?_
      rintro O vs _ u u' hNO ⟨ws, rfl, hws⟩ huu' _
      have hlist : Finishes (fun n => apply n (CoreName.cons.value consId) [v', .list ws]
          t.scopes.frames.size) u' (.ok (.list (v' :: ws)), u') :=
        finishes_builtin (fun _ => rfl) (by nofun) consId _
      refine .of_finishes (.const _) (steady_apply _ _ _) (Finishes.const (pure (v :: vs)) u nofun)
        hlist ?_
      exact .pure huu' ⟨v' :: ws, rfl, .cons (hv.mono hNO) hws⟩

theorem reduce_alike {acc acc' : Value} {xs xs' : List Value} (hst : Ready M s t)
    (hf : plainFrames.Val M f f') (hacc : plainFrames.Val M acc acc')
    (hxs : plainFrames.Vals M xs xs') (reduceId : Nat) (caller caller' : FrameId) :
    plainFrames.FinishAlike () M plainFrames.Val
      (fun n => xs.foldrM (fun x w => apply n f [x, w] caller) acc) s
      (fun n => apply n (CoreName.reduce.value reduceId) [f', acc', .list xs'] caller') t := by
  induction xs generalizing M s t xs' f' acc' reduceId caller' with
  | nil =>
      cases hxs
      refine .congr_right (hst.finishes_reduce_iff f' acc' [] reduceId caller') ?_
      refine .of_finishes (.const _) (steady_evaluate _ _) (Finishes.const (pure acc) s nofun)
        ((hst.inReduce f' acc' []).yields_parameter rfl) ?_
      exact .pure (hst.renamed.push_right _) hacc
  | cons x xs ih =>
      obtain ⟨x', xs', hx, hrest, rfl⟩ := List.forall₂_cons_left_iff.mp hxs
      have hst' := hst.entered [CoreName.f, CoreName.acc, CoreName.lis]
        (noReentry_of_vals (.cons hf (.cons hacc (.cons (.list hxs) .nil))))
      have hin := hst.inReduce f' acc' (x' :: xs')
      refine .congr_right (hst.finishes_reduce_iff f' acc' (x' :: xs') reduceId caller') ?_
      refine .congr_right (fun o => finishes_application_iff (by decide)
        (hin.yields_parameter (x := CoreName.f) rfl) _) ?_
      simp only [List.mapM_cons, List.mapM_nil, bind_assoc, pure_bind, List.foldrM_cons]
      refine .congr_right (fun o => Finishes.bind_iff (steady_evaluate _ _)
        (fun _ => (steady_evaluate _ _).bind fun _ => steady_apply _ _ _) (hin.yields_first rfl)) ?_
      -- The rest of the list is folded before the function is called for the first item.
      obtain ⟨reduceId', hreduce⟩ := hin.yields_core .reduce
      have hcall (o : Except Halt Value × Store) := finishes_call_iff (o := o) (by decide) hreduce
        (.cons (hin.yields_parameter (x := CoreName.f) rfl)
          (.cons (hin.yields_parameter (x := CoreName.acc) rfl) (.cons (hin.yields_rest rfl) .nil)))
      have hlater := (ih hst' hf hacc hrest reduceId' t.scopes.frames.size).congr_right hcall
      refine .bind not_false (Steady.foldrM (fun x w => steady_apply f [x, w] caller) acc xs)
        (steady_evaluate _ _) (fun w => steady_apply f [x, w] caller) (fun _ => steady_apply _ _ _)
        hlater ?_
      intro N w w' s' t' hMN hw hst'' _
      exact apply_alike hst'' (hf.mono hMN) (.cons (hx.mono hMN) (.cons hw .nil)) caller _

def Value.withIdentity (id : Nat) : Value → Value
  | .lambda _ params body frame => .lambda id params body frame
  | .native _ f => .native id f
  | v => v

/-- The core prelude has been run, and the functions that it defines and uses have not been
redefined. Identities differ when operations have been registered before it. -/
def Store.KeepsCore (s : Store) : Prop :=
  ∀ c : CoreName, ∃ id, s.scopes.own? baseFrame c.symbol =
    ((Store.withCore []).scopes.own? baseFrame c.symbol).map (Value.withIdentity id)

theorem Store.KeepsCore.hasCore {s : Store} (h : s.KeepsCore) : s.HasCore := by
  intro c
  obtain ⟨id, hid⟩ := h c
  obtain ⟨id', hid'⟩ := Store.hasCore_withCore [] c
  rw [hid', Option.map_some] at hid
  refine ⟨id, hid.trans ?_⟩
  cases c <;> rfl

theorem Store.keepsCore_withCore (characters : Pattern.CharacterNames) :
    (withCore characters).KeepsCore := by
  intro c
  obtain ⟨id, hid⟩ := hasCore_withCore characters c
  obtain ⟨id', hid'⟩ := hasCore_withCore [] c
  refine ⟨id, ?_⟩
  rw [hid, hid']
  cases c <;> rfl

theorem Store.Closed.evalPrelude {s : Store} (hs : s.Closed) (n : Nat) (code : String) :
    (s.after (evalPrelude n code)).Closed :=
  hs.of_agrees ((Comparison.agrees_evalText (M := .keeping _) n code
    (fun _ _ _ _ => trivial) ⟨rfl, hs.lt_base⟩ trivial).bind
      fun _ _ _ _ _ => .pure (R := Comparison.Same) fun _ _ => rfl)

theorem Store.NoReentry.evalPrelude {s : Store} (hs : s.NoReentry) (n : Nat) (code : String) :
    (s.after (evalPrelude n code)).NoReentry := by
  have hstands : (framesFixed fun _ => none).Stands () s := ⟨nofun, hs⟩
  exact (Invariant.stands_of_agrees ((Comparison.agrees_evalText n code
    (fun _ _ _ _ => trivial) rfl rfl).bind
      fun _ _ _ _ _ => .pure (R := Comparison.Same) fun _ _ => rfl) hstands).natives

/-- Two ways to end are the same up to frames: the answers match or the errors are equal, and so do
the stores, in which the frames of the store `s` that both started from have kept their numbers. -/
def EndAlike (s : Store) (o o' : Except Halt Value × Store) : Prop :=
  ∃ M : Matching, (∀ i < s.scopes.frames.size, M.frame i i) ∧
    Renamed (fun f => f.reenters = false) M o.2 o'.2 ∧
      Corresponds (Value.Matches M fun f => f.reenters = false) o.1 o'.1

/-- When one of two runs from the same store finishes, so does the other, and they end alike. -/
def SameOutcome (s : Store) (m m' : Nat → Run Value) : Prop :=
  (∀ o, Finishes m s o → ∃ o', Finishes m' s o' ∧ EndAlike s o o') ∧
    ∀ o', Finishes m' s o' → ∃ o, Finishes m s o ∧ EndAlike s o o'

theorem SameOutcome.of_finishAlike {s : Store} {m m' : Nat → Run Value}
    (h : plainFrames.FinishAlike () (.keeping s.scopes.frames.size) plainFrames.Val m s m' s) :
    SameOutcome s m m' := by
  have hends {o o' : Except Halt Value × Store}
      (h : plainFrames.Ends () (.keeping s.scopes.frames.size) plainFrames.Val o o') :
      EndAlike s o o' := by
    obtain ⟨M, hM, hst, hcorr⟩ := h.matched not_false
    exact ⟨M, fun i hi => hM.frame ⟨rfl, hi⟩, hst, hcorr.imp fun _ _ => Value.Agrees.matches⟩
  constructor
  · intro o ho
    obtain ⟨o', ho', he⟩ := h.1 o ho
    exact ⟨o', ho', hends he⟩
  · intro o' ho'
    obtain ⟨o, ho, he⟩ := h.2 o' ho'
    exact ⟨o, ho, hends he⟩

/-- Applying `map` to a function and a list does what the calls of the function on the items do,
from left to right and up to the first error, and gives the list of the answers. Applying `reduce`
does what the calls do that fold the list from the right. Both finish if those calls do. -/
theorem map_and_reduce_do_the_calls {s : Store} (hclosed : s.Closed) (hplain : s.NoReentry)
    (hcore : s.KeepsCore) {f acc : Value} {xs : List Value}
    (hvalues : ∀ v ∈ f :: acc :: xs, v.NoReentry ∧ ∀ i ∈ v.frames, i < s.scopes.frames.size)
    (caller caller' : FrameId) :
    (∃ map, s.scopes.own? baseFrame CoreName.map.symbol = some map ∧
      SameOutcome s (fun n => do return .list (← xs.mapM fun x => apply n f [x] caller))
        (fun n => apply n map [f, .list xs] caller')) ∧
    ∃ reduce, s.scopes.own? baseFrame CoreName.reduce.symbol = some reduce ∧
      SameOutcome s (fun n => xs.foldrM (fun x w => apply n f [x, w] caller) acc)
        (fun n => apply n reduce [f, acc, .list xs] caller') := by
  have hready : Ready (.keeping s.scopes.frames.size) s s :=
    ⟨hclosed.renamed_self hplain, hplain, hcore.hasCore⟩
  have hself : ∀ v ∈ f :: acc :: xs, plainFrames.Val (.keeping s.scopes.frames.size) v v :=
    fun v hv => Value.matches_keeping (hvalues v hv).2 (hvalues v hv).1
  simp only [List.forall_mem_cons] at hself
  obtain ⟨hf, hacc, hxs⟩ := hself
  have hxs := List.forall₂_same.mpr hxs
  obtain ⟨mapId, hmap⟩ := hcore.hasCore .map
  obtain ⟨reduceId, hreduce⟩ := hcore.hasCore .reduce
  refine ⟨⟨_, hmap, .of_finishAlike ?_⟩, _, hreduce,
    .of_finishAlike (reduce_alike hready hf hacc hxs reduceId caller caller')⟩
  have halike : plainFrames.FinishAlike () (.keeping s.scopes.frames.size) plainFrames.Val
      (fun n => do return .list (← xs.mapM fun x => apply n f [x] caller)) s
      (fun n => apply n (CoreName.map.value mapId) [f, .list xs] caller' >>= fun w => pure w)
      s := by
    refine .bind not_false (Steady.mapM (fun x => steady_apply f [x] caller) xs)
      (steady_apply _ _ _) (fun _ => .const _) (fun _ => .const _)
      (map_alike hready hf hxs mapId caller caller') ?_
    rintro N vs _ u u' _ ⟨ws, rfl, hws⟩ hst _
    exact .of_ends not_false fun _ => .pure hst (.list hws)
  simpa only [bind_pure] using halike

/-- A builtin mapped over two lists, and another one folded over them. -/
theorem map_and_reduce_do_the_calls_builtin :
    let s := Store.withCore []
    let xs : List Value := [.list [.boolean true], .list []]
    let f : Value := .native 3 (.builtin .rest)
    let g : Value := .native 4 (.builtin .cons)
    (s.Closed ∧ s.NoReentry ∧ s.KeepsCore) ∧
      (∃ map o, s.scopes.own? baseFrame CoreName.map.symbol = some map ∧
        Finishes (fun n => apply n map [f, .list xs] baseFrame) s o ∧
          EndAlike s (.ok (.list [.list [], .list []]), s) o) ∧
      ∃ reduce o, s.scopes.own? baseFrame CoreName.reduce.symbol = some reduce ∧
        Finishes (fun n => apply n reduce [g, .list [], .list xs] baseFrame) s o ∧
          EndAlike s (.ok (.list xs), s) o := by
  intro s xs f g
  have hclosed : s.Closed := (Store.closed_initial []).evalPrelude 1 coreSource
  have hplain : s.NoReentry := (Store.noReentry_initial []).evalPrelude 1 coreSource
  have hcore : s.KeepsCore := Store.keepsCore_withCore []
  have hvalues (b : Builtin) (id : Nat) : ∀ v ∈ .native id (.builtin b) :: .list [] :: xs,
      v.NoReentry ∧ ∀ i ∈ v.frames, i < s.scopes.frames.size := by
    simp [xs, Value.NoReentry, Value.natives, Value.nativesAll, Value.frames, Value.framesAll,
      Native.reenters]
  obtain ⟨⟨map, hmap, hmapped, _⟩, _⟩ :=
    map_and_reduce_do_the_calls hclosed hplain hcore (hvalues .rest 3) baseFrame baseFrame
  obtain ⟨_, reduce, hreduce, hreduced, _⟩ :=
    map_and_reduce_do_the_calls hclosed hplain hcore (hvalues .cons 4) baseFrame baseFrame
  obtain ⟨o, ho, halike⟩ := hmapped (.ok (.list [.list [], .list []]), s) ⟨by simp, 1, rfl⟩
  obtain ⟨o', ho', halike'⟩ := hreduced (.ok (.list xs), s) ⟨by simp, 1, rfl⟩
  exact ⟨⟨hclosed, hplain, hcore⟩, ⟨map, o, hmap, ho, halike⟩, reduce, o', hreduce, ho', halike'⟩

end Bakehouse
