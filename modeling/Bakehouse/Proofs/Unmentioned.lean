import Bakehouse.Proofs.CoreFunctions
import Bakehouse.Proofs.Grammar
import Bakehouse.Proofs.Hiding

namespace Bakehouse

/-- The name stands somewhere in the text. Strings and comments do not count, and neither does
anything after a place where the text cannot be read. -/
def Mentions (code : String) (x : Symbol) : Prop :=
  (⟨.atom, x.name.toList⟩ : Token) ∈ (lex code).ready

theorem Form.lookups_number_list (xs : List Float) : (Form.list (xs.map .number)).lookups = [] := by
  have hall : lookupsAll (xs.map .number) = [] := by
    induction xs with
    | nil => rfl
    | cons x xs ih =>
        simp only [List.map_cons, lookupsAll, lookups, ih]
        rfl
  cases xs with
  | nil => rfl
  | cons x xs => simpa only [List.map_cons, lookups, lookupsAll, specialForm?] using hall

theorem Form.mem_lookupsAll_of_list {fs : List Form} {x : Symbol}
    (hx : x ∈ (Form.list fs).lookups) : x ∈ lookupsAll fs := by
  cases fs with
  | nil => simp [lookups] at hx
  | cons f fs =>
      simp only [lookups] at hx
      simp only [lookupsAll, List.mem_append]
      split at hx
      · simp at hx
      · exact .inr hx
      · exact List.mem_append.mp hx

mutual

/-- What is looked up stands in the text. The name `quote` in front of a form that is quoted by a
sign does not, but it is not looked up either. -/
theorem Derives.mem_of_lookups {x : Symbol} : ∀ {p : List Token} {f : Form}, Derives p f →
    x ∈ f.lookups → (⟨.atom, x.name.toList⟩ : Token) ∈ p
  | _, f, .atom h, hx => by
      rcases Form.ofAtom_cases h with ⟨b, rfl⟩ | ⟨y, rfl⟩ | ⟨y, rfl⟩
      · simp [Form.lookups] at hx
      · simp [Form.lookups] at hx
      · have hxy : x = y := by simpa [Form.lookups] using hx
        rw [hxy, (Form.ofAtom_eq_symbol_iff.mp h).1]
        exact List.mem_singleton.mpr rfl
  | _, _, .text _, hx | _, _, .dishText _, hx | _, _, .dishBytes _, hx => by
      simp [Form.lookups] at hx
  | _, _, @Derives.vector _ bs _, hx => by
      have hnone := Form.lookups_number_list (bs.map fun b => Float.ofNat b.toNat)
      rw [List.map_map] at hnone
      exact absurd hx (hnone ▸ List.not_mem_nil)
  | _, _, .quote _, hx => by
      have hquote : Form.specialForm? (.symbol .quote) = some .quote := by decide
      simp [Form.lookups, hquote] at hx
  | _, _, .list hs, hx => by
      have hmem := DeriveAll.mem_of_lookups hs (Form.mem_lookupsAll_of_list hx)
      simp [hmem]

theorem DeriveAll.mem_of_lookups {x : Symbol} : ∀ {ps : List Token} {fs : List Form},
    DeriveAll ps fs → x ∈ Form.lookupsAll fs → (⟨.atom, x.name.toList⟩ : Token) ∈ ps
  | _, _, .nil, hx => by simp [Form.lookupsAll] at hx
  | _, _, .cons h hs, hx => by
      simp only [Form.lookupsAll, List.mem_append] at hx
      rw [List.mem_append]
      exact hx.imp h.mem_of_lookups (DeriveAll.mem_of_lookups hs)

end

theorem mentions_of_lookups {code : String} {f : Form} (hf : f ∈ (readAll code).1) {x : Symbol}
    (hx : x ∈ f.lookups) : Mentions code x := by
  obtain ⟨ps, rest, hready, hforms⟩ := deriveAll_readAll code
  have hall : x ∈ Form.lookupsAll (readAll code).1 := by
    generalize (readAll code).1 = fs at hf
    induction fs with
    | nil => cases hf
    | cons g fs ih =>
        simp only [Form.lookupsAll, List.mem_append]
        rcases List.mem_cons.mp hf with rfl | hf
        · exact .inl hx
        · exact .inr (ih hf)
  rw [Mentions, hready]
  exact List.mem_append_left rest (hforms.mem_of_lookups hall)

/-- The definition of a function, `(defn name (params...) body)`. -/
structure Definition where
  name : Symbol
  params : List Symbol
  body : Form

theorem defn_ne_empty : "defn" ≠ "" := by decide

def Definition.form (d : Definition) : Form :=
  .list [.symbol ⟨"defn", defn_ne_empty⟩, .symbol d.name, .list (d.params.map .symbol), d.body]

theorem Form.loadAll_symbols (xs : List Symbol) (s : Store) :
    Form.loadAll (xs.map .symbol) s = (.ok (xs.map .symbol), s) := by
  induction xs with
  | nil => rfl
  | cons x xs ih =>
      simp only [List.map_cons, Form.loadAll, Form.load, pure_bind]
      exact Run.bind_apply_ok ih

theorem Definition.load_form (d : Definition) {s t : Store} {body : Value}
    (hbody : d.body.load s = (.ok body, t)) :
    d.form.load s = (.ok (definition d.name d.params body), t) := by
  simp only [Definition.form, Form.load, Form.loadAll, pure_bind, bind_assoc]
  rw [Run.bind_apply_ok (Form.loadAll_symbols d.params s), Run.bind_apply_ok hbody]
  rfl

section Preludes

variable {known : Symbol → Prop} {M : Matching} {s t : Store}

theorem Store.Hidden.newDish_left (hst : Store.Hidden known M s t) (p : Payload) :
    Store.Hidden known M (s.newDish p).1 t where
  output_eq := hst.output_eq
  base := hst.base
  frames := hst.frames
  cells hk := by
    obtain ⟨c, hs, ht⟩ := hst.cells hk
    have hlt := (hst.lt_cells hk).1
    refine ⟨c, ?_, ht⟩
    rw [Store.newDish, Array.getElem?_push_lt hlt, ← Array.getElem?_eq_getElem hlt, hs]
  fresh := hst.fresh
  oneFrame := hst.oneFrame
  oneHandle := hst.oneHandle
  oneIdentity := hst.oneIdentity

theorem Store.Hidden.defined_left (hst : Store.Hidden known M s t) {x : Symbol} (hx : ¬ known x)
    (params : List Symbol) (body : Value) :
    Store.Hidden known M (s.defined baseFrame x params body) t where
  output_eq := hst.output_eq
  base := hst.base
  frames {i j} hij := by
    obtain ⟨f, g, hf, hg, hfg⟩ := hst.frames hij
    simp only [Store.defined, Scopes.getElem?_define, hf]
    split
    · exact ⟨_, g, rfl, hg, hfg.define_left hx _⟩
    · exact ⟨f, g, rfl, hg, hfg⟩
  cells := hst.cells
  fresh hab := ⟨Nat.lt_succ_of_lt (hst.fresh hab).1, (hst.fresh hab).2⟩
  oneFrame := hst.oneFrame
  oneHandle := hst.oneHandle
  oneIdentity := hst.oneIdentity

/-- Definitions of hidden names can be run on one side alone. -/
theorem exists_runForms_definitions (hst : Store.Hidden known M s t) {defs : List Definition}
    (hdefs : ∀ d ∈ defs, ¬ known d.name) :
    ∃ u, Store.Hidden known M u t ∧ ∀ n last, ∃ v,
      runForms (fun v => evaluate (n + 1) v baseFrame) last (defs.map (·.form)) none s =
        (.ok v, u) := by
  induction defs generalizing s with
  | nil => exact ⟨s, hst, fun _ last => ⟨last, rfl⟩⟩
  | cons d defs ih =>
      simp only [List.forall_mem_cons] at hdefs
      obtain ⟨body, s', hbody, hst'⟩ := d.body.exists_load (P := (Store.Hidden known M · t))
        (fun _ p hs => hs.newDish_left p) hst
      obtain ⟨u, hu, hrun⟩ := ih (hst'.defined_left hdefs.1 d.params body) hdefs.2
      refine ⟨u, hu, fun n last => ?_⟩
      obtain ⟨v, hv⟩ := hrun n (some (.symbol d.name))
      refine ⟨v, ?_⟩
      simp only [List.map_cons, runForms]
      rw [Run.bind_apply_ok (d.load_form hbody),
        Run.bind_apply_ok (evaluate_definition n d.name d.params body baseFrame s'), hv]

theorem exists_evalPrelude (hst : Store.Hidden known M s t) {code : String}
    {defs : List Definition} (hread : readAll code = (defs.map (·.form), none))
    (hdefs : ∀ d ∈ defs, ¬ known d.name) :
    ∃ u, Store.Hidden known M u t ∧ ∀ n, evalPrelude (n + 1) code s = (.ok (), u) := by
  obtain ⟨u, hu, hrun⟩ := exists_runForms_definitions hst hdefs
  refine ⟨u, hu, fun n => ?_⟩
  obtain ⟨v, hv⟩ := hrun n none
  simp only [evalPrelude, evalText, runSource, hread]
  exact Run.bind_apply_ok hv

end Preludes

theorem Value.hidden_of_isPlainNative {known : Symbol → Prop} {M : Matching} {n : Nat}
    (hM : ∀ a < n, M.identity a a) {v : Value} (hv : v.isPlainNative n = true) :
    Value.Hidden known M v v := by
  cases v with
  | native id f =>
      simp only [isPlainNative, Bool.and_eq_true, decide_eq_true_eq, Bool.not_eq_true'] at hv
      exact .native (hM id hv.1) hv.2
  | _ => cases hv

/-- The base frame and the functions that are there from the start stand for themselves. -/
def Matching.initial (characters : Pattern.CharacterNames) : Matching :=
  ⟨fun i j => i = j ∧ i = baseFrame, fun _ _ => False,
    fun a b => a = b ∧ a < (Store.initial characters).fresh⟩

theorem Store.hidden_initial (known : Symbol → Prop) (characters : Pattern.CharacterNames) :
    Store.Hidden known (.initial characters) (Store.initial characters)
      (Store.initial characters) where
  output_eq := rfl
  base := ⟨rfl, rfl⟩
  frames := by
    rintro i _ ⟨rfl, rfl⟩
    obtain ⟨f, hf, houter, hplain⟩ := founded_initial characters
    refine ⟨f, f, hf, hf, fun {x} _ => ?_, by simp [houter]⟩
    cases hx : f.get? x with
    | none => exact .none
    | some v =>
        have hv := hplain _ (Frame.mem_bindings_of_get? hx)
        exact .some (Value.hidden_of_isPlainNative (M := .initial characters)
          (fun a ha => ⟨rfl, ha⟩) hv)
  cells := nofun
  fresh := by
    rintro a _ ⟨rfl, ha⟩
    exact ⟨ha, ha⟩
  oneFrame := by
    rintro _ _ _ _ ⟨rfl, _⟩ ⟨rfl, _⟩
    rfl
  oneHandle := nofun
  oneIdentity := by
    rintro _ _ _ _ ⟨rfl, _⟩ ⟨rfl, _⟩
    rfl

/-- Two runs look the same from outside: they have written the same, and they end with answers of
the same display or with the same error. -/
structure LookAlike (o o' : Except Halt (Option Value) × Store) : Prop where
  output_eq : o.2.output = o'.2.output
  answers : Corresponds (Option.Rel fun v w => o.2.display v = o'.2.display w) o.1 o'.1

theorem Store.Hidden.lookAlike {known : Symbol → Prop} {M : Matching} {s t : Store}
    (hst : Store.Hidden known M s t) (hbase : M.frame baseFrame baseFrame) {code : String}
    (hcode : ∀ x, Mentions code x → known x) (fuel : Nat) :
    LookAlike (evalText fuel code s) (evalText fuel code t) := by
  have hlookups : ∀ f ∈ (readAll code).1, ∀ x ∈ f.lookups, known x :=
    fun f hf x hx => hcode x (mentions_of_lookups hf hx)
  have hagrees := Comparison.agrees_evalText (C := uptoHidden known) fuel code hlookups hbase trivial
  obtain ⟨N, _, hst', hcorr⟩ := (hagrees () M s t le_rfl hst).matched not_false
  refine ⟨hst'.output_eq, hcorr.imp fun v w hvw => rel_imp (fun v w hvw => ?_) hvw⟩
  exact Comparison.store_display_eq hst' hvw

theorem exists_definition_of_spells {f : Form} {x : Symbol} {params : List Symbol} {body : Value}
    (h : f.spells (definition x params body) = true) : ∃ d : Definition, d.name = x ∧ d.form = f := by
  obtain ⟨_, rfl, hitems⟩ := Form.exists_of_spells_list h
  obtain ⟨_, _, rfl, hhead, htail⟩ := Form.exists_of_spellsAll_cons hitems
  obtain ⟨_, _, rfl, hname, hrest⟩ := Form.exists_of_spellsAll_cons htail
  obtain ⟨_, _, rfl, hparams, hlast⟩ := Form.exists_of_spellsAll_cons hrest
  obtain ⟨g, _, rfl, _, hnil⟩ := Form.exists_of_spellsAll_cons hlast
  obtain ⟨_, rfl, hsymbols⟩ := Form.exists_of_spells_list hparams
  obtain rfl := Form.eq_nil_of_spellsAll hnil
  refine ⟨⟨x, params, g⟩, rfl, ?_⟩
  rw [Form.eq_of_spells_symbol hhead, Form.eq_of_spells_symbol hname,
    Form.eq_of_spellsAll_symbols hsymbols]
  rfl

/-- A prelude of definitions always runs, and a program that mentions none of the names it defines
looks the same after it as without it, whatever the fuel. -/
theorem unmentioned_definitions_are_unnoticed {prelude : String} {defs : List Definition}
    (hprelude : readAll prelude = (defs.map (·.form), none)) {program : String}
    (hprogram : ∀ d ∈ defs, ¬ Mentions program d.name) (characters : Pattern.CharacterNames) :
    ∃ s, (∀ n, evalPrelude (n + 1) prelude (Store.initial characters) = (.ok (), s)) ∧
      ∀ fuel, LookAlike (evalText fuel program s)
        (evalText fuel program (Store.initial characters)) := by
  obtain ⟨s, hst, hrun⟩ := exists_evalPrelude (Store.hidden_initial (Mentions program) characters)
    hprelude hprogram
  exact ⟨s, hrun, hst.lookAlike hst.base fun _ h => h⟩

/-- The core prelude, and a program with the names of its functions in a string and in a comment. -/
theorem unmentioned_definitions_are_unnoticed_core :
    let program := "(print \"map\") ; reduce\n((fn (x) (cons x '())) \"a\")"
    let start := Store.initial []
    (∀ c ∈ [CoreName.map, CoreName.reduce], ¬ Mentions program c.symbol) ∧
      (evalText 4 program start).2.output = "map\n" ∧
        ∃ s, (∀ n, evalPrelude (n + 1) coreSource start = (.ok (), s)) ∧
          ∀ fuel, LookAlike (evalText fuel program s) (evalText fuel program start) := by
  intro program start
  have hnames : ∀ c ∈ [CoreName.map, CoreName.reduce], ¬ Mentions program c.symbol := by
    unfold Mentions
    decide +kernel
  obtain ⟨f, g, hread, hf, hg⟩ := eq_of_spellsTwo spellsTwo_coreSource
  obtain ⟨d, hd, rfl⟩ := exists_definition_of_spells hf
  obtain ⟨e, he, rfl⟩ := exists_definition_of_spells hg
  have hprelude : readAll coreSource = ([d, e].map (·.form), none) := hread
  refine ⟨hnames, by decide +kernel, unmentioned_definitions_are_unnoticed hprelude ?_ []⟩
  simp only [List.forall_mem_cons] at hnames ⊢
  exact ⟨hd ▸ hnames.1, he ▸ hnames.2.1, by simp⟩

end Bakehouse
