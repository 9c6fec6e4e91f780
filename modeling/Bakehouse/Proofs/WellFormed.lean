import Bakehouse.Console.Prelude
import Bakehouse.Proofs.ReadingBack
import Bakehouse.Proofs.Registration
import Bakehouse.Proofs.Vocabulary.Evaluator

namespace Bakehouse

/-- The name is a single atom, and the atom is read as the symbol. -/
def Symbol.Readable (x : Symbol) : Prop :=
  lex x.name = ⟨[⟨.atom, x.name.toList⟩], none⟩ ∧ Form.ofAtom x.name.toList = .ok (.symbol x)

theorem Symbol.readable_iff {x : Symbol} :
    x.Readable ↔ x.name.toList.any Lexer.isDelimiter = false ∧ x.name ≠ "true" ∧
      x.name ≠ "false" ∧ Number.literal? x.name.toList = none ∧
      x.name.toList.head?.any Text.isDigit = false := by
  constructor
  · rintro ⟨hlex, hatom⟩
    obtain ⟨_, hspelling⟩ := Form.ofAtom_eq_symbol_iff.mp hatom
    have hspelled := spelled_lex x.name ⟨.atom, x.name.toList⟩ (by simp [hlex])
    exact ⟨(Token.spelled_atom_iff.mp hspelled).2, hspelling⟩
  · rintro ⟨hword, hspelling⟩
    have hne : x.name.toList ≠ [] := fun h => x.nonempty (String.toList_eq_nil_iff.mp h)
    have hspelled := Token.spelled_atom_iff.mpr ⟨hne, hword⟩
    exact ⟨(Writes.token hspelled).lex_eq, Form.ofAtom_eq_symbol_iff.mpr ⟨rfl, hspelling⟩⟩

instance (x : Symbol) : Decidable x.Readable :=
  decidable_of_iff _ Symbol.readable_iff.symm

theorem Symbol.readable_quote : Symbol.quote.Readable := by
  decide +kernel

/-- Strings without quotes, and symbols that can be read. -/
def Vocabulary.readable : Vocabulary where
  text s := '"' ∉ s.toList
  symbol := Symbol.Readable
  nil := by decide +kernel

theorem Form.within_ofAtom {text : List Char} {f : Form} (ht : (⟨.atom, text⟩ : Token).Spelled)
    (h : ofAtom text = .ok f) : f.Within .readable := by
  rcases ofAtom_cases h with ⟨b, rfl⟩ | ⟨x, rfl⟩ | ⟨x, rfl⟩
  · exact .boolean b
  · exact .number x
  · obtain ⟨rfl, hspelling⟩ := ofAtom_eq_symbol_iff.mp h
    exact .symbol (Symbol.readable_iff.mpr ⟨(Token.spelled_atom_iff.mp ht).2, hspelling⟩)

mutual

theorem Derives.within {p : List Token} {f : Form} :
    Derives p f → (∀ t ∈ p, t.Spelled) → f.Within .readable
  | .atom h, hp => Form.within_ofAtom (hp _ (by simp)) h
  | .text cs, hp => by
      have hquote : '"' ∉ cs := Token.Spelled.close_notMem (e := .text) (hp _ List.mem_cons_self)
      refine .text ?_
      change '"' ∉ (String.ofList cs).toList
      rwa [String.toList_ofList]
  | .dishText _, _ => .dish _
  | .dishBytes _, _ => .dish _
  | .vector _, _ => by
      refine .list fun f hf => ?_
      obtain ⟨b, _, rfl⟩ := List.mem_map.mp hf
      exact .number _
  | .quote h, hp => by
      simp only [List.forall_mem_cons] at hp
      refine .list ?_
      simp only [List.forall_mem_cons]
      exact ⟨.symbol Symbol.readable_quote, h.within hp.2, by simp⟩
  | .list h, hp => .list (h.within fun t ht => hp t (by simp [ht]))

theorem DeriveAll.within {ps : List Token} {fs : List Form} :
    DeriveAll ps fs → (∀ t ∈ ps, t.Spelled) → ∀ f ∈ fs, f.Within .readable
  | .nil, _ => by simp
  | .cons h hs, hp => by
      simp only [List.forall_mem_cons]
      exact ⟨h.within fun t ht => hp t (by simp [ht]), hs.within fun t ht => hp t (by simp [ht])⟩

end

theorem reads_readable : Vocabulary.readable.Reads where
  one {code f} h := (read_eq_ok_iff.mp h).2.within (spelled_lex code)
  all {code f} h := by
    obtain ⟨ps, rest, hsplit, hps⟩ := deriveAll_readAll code
    exact hps.within (fun t ht => spelled_lex code t (by simp [hsplit, ht])) f h

theorem Builtin.readable_symbol : ∀ b ∈ Builtin.all, b.symbol.Readable := by
  decide +kernel

theorem Catalog.readable_name (characters : Pattern.CharacterNames) :
    ∀ op ∈ Catalog.all characters, ∀ x ∈ Symbol.ofString? op.name, x.Readable := by
  have hnames : ∀ name ∈ (Catalog.all []).map Catalog.name, ∀ x ∈ Symbol.ofString? name,
      x.Readable := by
    decide +kernel
  intro op hop
  exact hnames op.name (name_mem_of_mem_all hop)

/-- Stores of an interpreter between calls from outside. -/
inductive Session : Store → Prop
  | initial (characters : Pattern.CharacterNames) : Session (Store.initial characters)
  | evalOne {s : Store} (fuel : Nat) (code : String) :
      Session s → Session (Bakehouse.evalOne fuel code s).2
  | evalText {s : Store} (fuel : Nat) (code : String) :
      Session s → Session (Bakehouse.evalText fuel code s).2

/-- The moment comes up in a call from outside that starts in the store `s`: the call would end in
another way if it was broken off there. -/
inductive ComesUp (s : Store) (m : Moment) : Prop
  | inForm {code : String} {f : Form} {fuel : Nat} {halt : Halt} (hread : read code = .ok f)
      (h : (do evaluateUntil m halt fuel (← f.load) baseFrame : Run Value) s ≠
        evalOne fuel code s)
  | inText {code : String} {fuel : Nat} {halt : Halt}
      (h : runSource (fun e => evaluateUntil m halt fuel e baseFrame) code s ≠
        evalText fuel code s)

@[simp] theorem Run.program_store {α : Type} (m : Run α) (s : Store) :
    (m.program s).2 = (m s).2 := rfl

theorem Program.bind_apply {α β : Type} (m : Program α) (k : α → Program β) (s : Store) :
    (m >>= k) s = match m s with
      | (.ok a, t) => k a t
      | (.error e, t) => (.error e, t) := by
  change ExceptT.bindCont k (m s).1 (m s).2 = _
  rcases m s with ⟨_ | _, t⟩ <;> rfl

namespace Session

variable {s : Store}

theorem evalPrelude (hs : Session s) (fuel : Nat) (code : String) :
    Session ((Bakehouse.evalPrelude fuel code).program s).2 := by
  have hstore : (Bakehouse.evalPrelude fuel code s).2 = (Bakehouse.evalText fuel code s).2 := by
    unfold Bakehouse.evalPrelude
    rw [Run.bind_apply]
    generalize Bakehouse.evalText fuel code s = o
    rcases o with ⟨_ | _, t⟩ <;> rfl
  rw [Run.program_store, hstore]
  exact hs.evalText fuel code

theorem forM {α : Type} {f : α → Program Unit} (hf : ∀ x t, Session t → Session (f x t).2)
    (xs : List α) (hs : Session s) : Session (xs.forM f s).2 := by
  induction xs generalizing s with
  | nil => exact hs
  | cons x xs ih =>
      have hx := hf x s hs
      change Session ((f x >>= fun _ => xs.forM f) s).2
      rw [Program.bind_apply]
      generalize f x s = o at hx
      rcases o with ⟨_ | _, t⟩
      · exact hx
      · exact ih hx

theorem load (hs : Session s) (fuel : Nat) (files : Files) (settings : Settings)
    (prelude : Prelude) : Session (prelude.load fuel files settings s).2 := by
  cases prelude with
  | automatic =>
      refine forM (fun file t ht => ?_) _ hs
      unfold loadFile
      cases file.read files with
      | ok code => exact ht.evalPrelude fuel code
      | error e => exact ht
  | none => exact hs
  | source code => exact hs.evalPrelude fuel code

theorem within (hs : Session s) : s.Within .readable := by
  induction hs with
  | initial characters =>
      exact Vocabulary.within_initial characters Builtin.readable_symbol
        (Catalog.readable_name characters)
  | evalOne fuel code _ ih => exact (Vocabulary.keeps_evalOne reads_readable fuel code _ ih).2.1
  | evalText fuel code _ ih => exact (Vocabulary.keeps_evalText reads_readable fuel code _ ih).2.1

theorem within_of_comesUp (hs : Session s) {m : Moment} (hm : ComesUp s m) :
    m.Within .readable := by
  by_contra hstop
  cases hm with
  | @inForm code f fuel halt hread h =>
      refine h ?_
      have hload := Vocabulary.keeps_load f (reads_readable.one hread)
      have hbroken : Vocabulary.Alike .readable (Value.Within .readable)
          (do evaluateUntil m halt fuel (← f.load) baseFrame) (Bakehouse.evalOne fuel code) := by
        simp only [Bakehouse.evalOne, hread]
        exact hload.bind fun e he =>
          (Vocabulary.alike_until halt hstop reads_readable fuel).1 baseFrame he
      exact (hbroken s hs.within).1
  | @inText code fuel halt h =>
      refine h ?_
      have hbroken := Vocabulary.alike_runSource
        (fun he => (Vocabulary.alike_until halt hstop reads_readable fuel).1 baseFrame he)
        reads_readable code
      exact (hbroken s hs.within).1

end Session

theorem SpecialForm.eq_of_parameters {params : Value} {names : List Symbol} {s t : Store}
    (h : parameters params s = (.ok names, t)) : params = .list (names.map .symbol) := by
  simp only [parameters, Run.get_bind_apply] at h
  cases params with
  | list items =>
      simp only [Value.list.injEq] at h ⊢
      induction items generalizing names with
      | nil =>
          cases h
          rfl
      | cons item items ih =>
          rw [List.mapM_cons] at h
          cases item with
          | symbol x =>
              rw [pure_bind, Run.bind_apply] at h
              split at h
              · rename_i rest u hrest
                cases h
                rw [ih hrest]
                rfl
              · cases h
          | _ => cases h
  | _ => cases h

theorem SpecialForm.exists_of_makeLambda {params body v : Value} {frame : FrameId} {s : Store}
    (h : (makeLambda params body frame s).1 = .ok v) :
    ∃ id names, params = .list (names.map .symbol) ∧ v = .lambda id names body frame := by
  unfold makeLambda at h
  rw [Run.bind_apply] at h
  rcases hnames : parameters params s with ⟨_ | names, t⟩
  · rw [hnames] at h
    cases h
  · rw [hnames] at h
    cases h
    exact ⟨_, names, eq_of_parameters hnames, rfl⟩

theorem exists_bindAll (frame : FrameId) (params : List Symbol) (args : List Value) (s : Store) :
    ∃ t, bindAll frame params args s = (.ok (), t) := by
  induction params generalizing args s with
  | nil =>
      simp only [bindAll]
      exact ⟨s, rfl⟩
  | cons x params ih =>
      cases args with
      | nil => exact ⟨s, rfl⟩
      | cons v args => exact ih args { s with scopes := s.scopes.define frame x v }

theorem exists_enter {params : List Symbol} {args : List Value}
    (hlen : params.length = args.length) (outer : FrameId) (s : Store) :
    ∃ frame t, enter outer params args s = (.ok frame, t) := by
  obtain ⟨t, ht⟩ := exists_bindAll s.scopes.frames.size params args
    { s with scopes := (s.scopes.push outer).1 }
  refine ⟨s.scopes.frames.size, t, ?_⟩
  simp only [enter, if_pos hlen]
  exact Run.bind_apply_ok ht

theorem apply_lambda_of_enter {names : List Symbol} {args : List Value} {outer frame : FrameId}
    {s t : Store} (h : enter outer names args s = (.ok frame, t)) (fuel id : Nat) (body : Value)
    (caller : FrameId) :
    apply (fuel + 1) (.lambda id names body outer) args caller s = evaluate fuel body frame t := by
  rw [apply_succ]
  exact Run.bind_apply_ok h

theorem apply_lambda_of_length_ne {names : List Symbol} {args : List Value}
    (hlen : names.length ≠ args.length) (fuel id : Nat) (body : Value) (outer caller : FrameId)
    (s : Store) :
    apply (fuel + 1) (.lambda id names body outer) args caller s =
      (.error (.error (.arity (.lambda names.length args.length))), s) := by
  rw [apply_succ]
  simp only [applyStep, enter, if_neg hlen]
  rfl

/-- Before, during and after every call of an interpreter that was started with any prelude, strings
hold no quote and symbols can be read. A function has symbols as parameters, and there is only one
thing that can go wrong when they are bound: their number. -/
theorem values_are_well_formed :
    (∀ (characters : Pattern.CharacterNames) (fuel : Nat) (files : Files) (settings : Settings)
      (prelude : Prelude),
      Session (prelude.load fuel files settings (Store.initial characters)).2) ∧
    (∀ s, Session s →
      s.Within .readable ∧ (∀ m, ComesUp s m → m.Within .readable) ∧
      (∀ fuel code v, (evalOne fuel code s).1 = .ok v → v.Within .readable) ∧
      ∀ fuel code v, (evalText fuel code s).1 = .ok (some v) → v.Within .readable) ∧
    (∀ x : Symbol, x.Readable →
      x.name ≠ "true" ∧ x.name ≠ "false" ∧ Number.literal? x.name.toList = none) ∧
    (∀ params body frame v s, (SpecialForm.makeLambda params body frame s).1 = .ok v →
      ∃ id names, params = .list (names.map .symbol) ∧ v = .lambda id names body frame) ∧
    ∀ fuel id names body outer args caller s,
      names.length ≠ args.length ∧
        apply (fuel + 1) (.lambda id names body outer) args caller s =
          (.error (.error (.arity (.lambda names.length args.length))), s) ∨
      names.length = args.length ∧ ∃ frame t, enter outer names args s = (.ok frame, t) ∧
        apply (fuel + 1) (.lambda id names body outer) args caller s =
          evaluate fuel body frame t := by
  refine ⟨?_, ?_, ?_, ?_, ?_⟩
  · intro characters fuel files settings prelude
    exact (Session.initial characters).load fuel files settings prelude
  · intro s hs
    refine ⟨hs.within, fun m hm => hs.within_of_comesUp hm, ?_, ?_⟩
    · intro fuel code v hv
      exact (Vocabulary.keeps_evalOne reads_readable fuel code s hs.within).2.2 v hv
    · intro fuel code v hv
      exact (Vocabulary.keeps_evalText reads_readable fuel code s hs.within).2.2 _ hv v rfl
  · intro x hx
    obtain ⟨_, htrue, hfalse, hnumber, _⟩ := Symbol.readable_iff.mp hx
    exact ⟨htrue, hfalse, hnumber⟩
  · intro params body frame v s hv
    exact SpecialForm.exists_of_makeLambda hv
  · intro fuel id names body outer args caller s
    by_cases hlen : names.length = args.length
    · obtain ⟨frame, t, henter⟩ := exists_enter hlen outer s
      exact .inr ⟨hlen, frame, t, henter, apply_lambda_of_enter henter fuel id body caller⟩
    · exact .inl ⟨hlen, apply_lambda_of_length_ne hlen fuel id body outer caller s⟩

/-- A quoted list with a string in it, given to an interpreter that has had a definition. -/
theorem values_are_well_formed_quoted :
    let s := (evalText 5 "(def f (fn (x) \"raw\"))" (Store.initial [])).2
    let v : Value := .list [.symbol ⟨"dough", by decide⟩, .text "raw"]
    let e : Value := .list [.symbol .quote, v]
    let code := "'(dough \"raw\")"
    Session s ∧ (evalOne 1 code s).1 = .ok v ∧ v.Within .readable ∧ ComesUp s ⟨[e], s⟩ ∧
      e.Within .readable := by
  intro s v e code
  let word : Symbol := ⟨"dough", by decide⟩
  let f : Form := .list [.symbol .quote, .list [.symbol word, .text "raw"]]
  have hword : Derives [⟨.atom, "dough".toList⟩] (.symbol word) :=
    .atom (Form.ofAtom_eq_symbol_iff.mpr (by decide +kernel))
  have htokens : lex code = ⟨⟨.quote, ['\'']⟩ :: ⟨.lparen, ['(']⟩ :: (([⟨.atom, "dough".toList⟩] ++
      ([⟨.literal .text, '"' :: (['r', 'a', 'w'] ++ ['"'])⟩] ++ [])) ++ [⟨.rparen, [')']⟩]),
      none⟩ := by decide +kernel
  have hread : read code = .ok f := by
    rw [read_eq_ok_iff, htokens]
    exact ⟨rfl, .quote (.list (.cons hword (.cons (.text _) .nil)))⟩
  have hone : evalOne 1 code s = (.ok v, s) := by
    simp only [evalOne, hread]
    rfl
  have hs : Session s := (Session.initial []).evalText 5 _
  have hbroken : (do evaluateUntil ⟨[e], s⟩ .outOfFuel 1 (← f.load) baseFrame : Run Value) s ≠
      evalOne 1 code s := by
    have hstart : (do evaluateUntil ⟨[e], s⟩ .outOfFuel 1 (← f.load) baseFrame : Run Value) s =
        (.error .outOfFuel, s) := if_pos rfl
    rw [hstart, hone]
    nofun
  have hcomes : ComesUp s ⟨[e], s⟩ := .inForm hread hbroken
  obtain ⟨_, hsession, _⟩ := values_are_well_formed
  obtain ⟨_, hmoments, hanswers, _⟩ := hsession s hs
  have he := (hmoments _ hcomes).1 e (by simp)
  exact ⟨hs, congrArg Prod.fst hone, hanswers 1 code v (congrArg Prod.fst hone), hcomes, he⟩

end Bakehouse
