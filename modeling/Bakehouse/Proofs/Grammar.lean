import Bakehouse.Proofs.Lexing
import Bakehouse.Proofs.Parsing

namespace Bakehouse

mutual

/-- The tokens spell the form. -/
inductive Derives : List Token → Form → Prop
  | atom {text : List Char} {f : Form} (h : Form.ofAtom text = .ok f) : Derives [⟨.atom, text⟩] f
  | text (cs : List Char) :
      Derives [⟨.literal .text, '"' :: (cs ++ ['"'])⟩] (.text (String.ofList cs))
  | dishText (cs : List Char) :
      Derives [⟨.literal .dishText, 'd' :: '"' :: (cs ++ ['"'])⟩]
        (.dish (.text (String.ofList cs)))
  | dishBytes {cs : List Char} {bs : List UInt8} (h : Form.bytes .dishBytes cs = .ok bs) :
      Derives [⟨.literal .dishBytes, 'd' :: '[' :: (cs ++ [']'])⟩] (.dish (.binary bs))
  | vector {cs : List Char} {bs : List UInt8} (h : Form.bytes .vector cs = .ok bs) :
      Derives [⟨.literal .vector, '[' :: (cs ++ [']'])⟩]
        (.list (bs.map fun b => .number (Float.ofNat b.toNat)))
  | quote {p : List Token} {f : Form} (h : Derives p f) :
      Derives (⟨.quote, ['\'']⟩ :: p) (.list [.symbol .quote, f])
  | list {ps : List Token} {fs : List Form} (h : DeriveAll ps fs) :
      Derives (⟨.lparen, ['(']⟩ :: (ps ++ [⟨.rparen, [')']⟩])) (.list fs)

/-- The tokens spell the forms, one after the other. -/
inductive DeriveAll : List Token → List Form → Prop
  | nil : DeriveAll [] []
  | cons {p ps : List Token} {f : Form} {fs : List Form} (h : Derives p f) (hs : DeriveAll ps fs) :
      DeriveAll (p ++ ps) (f :: fs)

end

theorem Derives.ne_nil {p : List Token} {f : Form} (h : Derives p f) : p ≠ [] := by
  cases h <;> simp

theorem Symbol.ofChars_eq_iff {c : Char} {cs : List Char} {x : Symbol} :
    Symbol.ofChars c cs = x ↔ x.name.toList = c :: cs := by
  constructor
  · rintro rfl
    simp only [Symbol.ofChars, String.toList_ofList]
  · intro h
    rcases x with ⟨name, hname⟩
    simp only [Symbol.ofChars, Symbol.mk.injEq]
    rw [← h, String.ofList_toList]

theorem Form.ofAtom_eq_symbol_iff {cs : List Char} {x : Symbol} :
    Form.ofAtom cs = .ok (.symbol x) ↔
      x.name.toList = cs ∧ x.name ≠ "true" ∧ x.name ≠ "false" ∧ Number.literal? cs = none ∧
        cs.head?.any Text.isDigit = false := by
  have hname (s : String) : x.name.toList = cs → (cs = s.toList ↔ x.name = s) := by
    rintro rfl
    exact String.toList_inj
  constructor
  · intro h
    unfold Form.ofAtom at h
    split at h
    · cases h
    rename_i htrue
    split at h
    · cases h
    rename_i hfalse
    split at h
    · cases h
    rename_i hliteral
    split at h
    · cases h
    rename_i c cs
    split at h
    · cases h
    rename_i hdigit
    obtain rfl := Form.symbol.inj (Except.ok.inj h)
    have hspelled := Symbol.ofChars_eq_iff.mp (rfl : Symbol.ofChars c cs = _)
    refine ⟨hspelled, ?_, ?_, hliteral, by simpa using hdigit⟩
    · exact fun heq => htrue ((hname _ hspelled).mpr heq)
    · exact fun heq => hfalse ((hname _ hspelled).mpr heq)
  · rintro ⟨hspelled, htrue, hfalse, hliteral, hdigit⟩
    unfold Form.ofAtom
    rw [if_neg fun heq => htrue ((hname _ hspelled).mp heq),
      if_neg fun heq => hfalse ((hname _ hspelled).mp heq), hliteral]
    cases cs with
    | nil => exact absurd (String.toList_eq_nil_iff.mp hspelled) x.nonempty
    | cons c cs =>
        have hc : Text.isDigit c = false := hdigit
        simp [hc, Symbol.ofChars_eq_iff.mpr hspelled]

theorem Form.ofAtom_cases {cs : List Char} {f : Form} (h : Form.ofAtom cs = .ok f) :
    (∃ b, f = .boolean b) ∨ (∃ x, f = .number x) ∨ ∃ x, f = .symbol x := by
  unfold Form.ofAtom at h
  split at h
  · exact .inl ⟨true, (Except.ok.inj h).symm⟩
  split at h
  · exact .inl ⟨false, (Except.ok.inj h).symm⟩
  split at h
  · exact .inr (.inl ⟨_, (Except.ok.inj h).symm⟩)
  split at h
  · cases h
  split at h
  · cases h
  · exact .inr (.inr ⟨_, (Except.ok.inj h).symm⟩)

theorem Derives.of_literal {e : Enclosure} {cs : List Char} {f : Form}
    (h : Form.ofLiteral e (e.opening ++ (cs ++ [e.close])) = .ok f) :
    Derives [⟨.literal e, e.opening ++ (cs ++ [e.close])⟩] f := by
  cases e with
  | text =>
      simp only [Form.ofLiteral, Form.inside, Enclosure.opening, List.singleton_append,
        List.drop_succ_cons, List.drop_zero, List.dropLast_concat, Except.ok.injEq] at h
      subst h
      exact .text cs
  | dishText =>
      simp only [Form.ofLiteral, Form.inside, Enclosure.opening, List.cons_append, List.nil_append,
        List.drop_succ_cons, List.drop_zero, List.dropLast_concat, Except.ok.injEq] at h
      subst h
      exact .dishText cs
  | dishBytes =>
      simp only [Form.ofLiteral, Form.inside, Enclosure.opening, List.cons_append, List.nil_append,
        List.drop_succ_cons, List.drop_zero, List.dropLast_concat] at h
      obtain ⟨bs, hbytes, rfl⟩ := exists_of_map h
      exact .dishBytes hbytes
  | vector =>
      simp only [Form.ofLiteral, Form.inside, Enclosure.opening, List.singleton_append,
        List.drop_succ_cons, List.drop_zero, List.dropLast_concat] at h
      obtain ⟨bs, hbytes, rfl⟩ := exists_of_map h
      exact .vector hbytes

mutual

theorem Derives.composes {p : List Token} {f : Form} : Derives p f → Composes p f
  | .atom h => .atom rfl h
  | .text _ => .literal rfl (by simp [Form.ofLiteral, Form.inside])
  | .dishText _ => .literal rfl (by simp [Form.ofLiteral, Form.inside])
  | .dishBytes h => .literal rfl (by simp [Form.ofLiteral, Form.inside, h, Except.map])
  | .vector h => .literal rfl (by simp [Form.ofLiteral, Form.inside, h, Except.map])
  | .quote h => .quote rfl h.composes
  | .list h => .list rfl rfl h.composeAll

theorem DeriveAll.composeAll {ps : List Token} {fs : List Form} :
    DeriveAll ps fs → ComposeAll ps fs
  | .nil => .nil
  | .cons h hs => .cons h.composes hs.composeAll

end

mutual

theorem Composes.derives {p : List Token} {f : Form} :
    Composes p f → (∀ t ∈ p, t.Spelled) → Derives p f
  | @Composes.atom t f ht h, hts => by
      rcases t with ⟨kind, text⟩
      obtain rfl : kind = .atom := ht
      exact .atom h
  | @Composes.literal t e f ht h, hts => by
      cases hts t (List.mem_singleton_self t) with
      | literal e _ =>
          cases ht
          exact .of_literal h
      | _ => cases ht
  | @Composes.quote t p f ht h, hts => by
      obtain ⟨hquote, hp⟩ := List.forall_mem_cons.mp hts
      cases hquote with
      | quote => exact .quote (h.derives hp)
      | _ => cases ht
  | @Composes.list opening closing ps fs hopening hclosing h, hts => by
      obtain ⟨hopens, hts⟩ := List.forall_mem_cons.mp hts
      obtain ⟨hps, hcloses⟩ := List.forall_mem_append.mp hts
      cases hopens with
      | lparen =>
          cases hcloses closing (List.mem_singleton_self closing) with
          | rparen => exact .list (h.deriveAll hps)
          | _ => cases hclosing
      | _ => cases hopening

theorem ComposeAll.deriveAll {ps : List Token} {fs : List Form} :
    ComposeAll ps fs → (∀ t ∈ ps, t.Spelled) → DeriveAll ps fs
  | .nil, _ => .nil
  | .cons h hs, hts => by
      obtain ⟨hp, hps⟩ := List.forall_mem_append.mp hts
      exact .cons (h.derives hp) (hs.deriveAll hps)

end

namespace Parser

variable {failure : Option ReadError}

theorem form_derives {p : List Token} {f : Form} (h : Derives p f) (stack : List Unfinished)
    (ts : List Token) : form failure stack (p ++ ts) = resume failure (complete stack f) ts :=
  form_composes h.composes stack ts

theorem form_eq_ok_iff {ts : List Token} (hts : ∀ t ∈ ts, t.Spelled) {f : Form} {later : Tokens} :
    form failure [] ts = (.ok f, later) ↔
      ∃ p rest, ts = p ++ rest ∧ Derives p f ∧ later = ⟨rest, failure⟩ := by
  rw [form_eq_ok_iff_composes]
  constructor
  · rintro ⟨p, rest, rfl, hf, rfl⟩
    exact ⟨p, rest, rfl, hf.derives fun t ht => hts t (List.mem_append_left rest ht), rfl⟩
  · rintro ⟨p, rest, rfl, hf, rfl⟩
    exact ⟨p, rest, rfl, hf.composes, rfl⟩

/-- The forms `fs`, and then those that come later. -/
def Forms.preceded (fs : List Form) (later : Forms) : Forms :=
  { later with forms := fs ++ later.forms }

/-- Forms are parsed one after the other. -/
theorem forms_of_form {stack : List Unfinished} {ts : List Token} {f : Form} {later : Tokens}
    (h : form failure stack ts = (.ok f, later)) :
    forms failure stack ts = (forms later.failure [] later.ready).preceded [f] := by
  induction ts generalizing stack with
  | nil => cases h
  | cons t ts ih =>
      obtain ⟨progress, hfeed, hrest⟩ := exists_of_form_cons h
      rw [forms, hfeed]
      cases progress with
      | done g =>
          cases hrest
          rfl
      | more next => exact ih hrest

theorem forms_of_form_error {stack : List Unfinished} {ts : List Token} {e : ReadError}
    {later : Tokens} (h : form failure stack ts = (.error e, later)) :
    (forms failure stack ts).forms = [] := by
  induction ts generalizing stack with
  | nil => rfl
  | cons t ts ih =>
      cases hfeed : feed stack t with
      | error e => rw [forms, hfeed]
      | ok progress =>
          rw [form_cons hfeed] at h
          rw [forms, hfeed]
          cases progress with
          | done g => cases h
          | more next => exact ih h

/-- All forms of a text together are spelled by a beginning of its tokens. -/
theorem deriveAll_forms {ts : List Token} (hts : ∀ t ∈ ts, t.Spelled) :
    ∃ ps rest, ts = ps ++ rest ∧ DeriveAll ps (forms failure [] ts).forms := by
  induction hn : ts.length using Nat.strongRecOn generalizing ts with
  | ind n ih =>
      subst hn
      rcases hform : form failure [] ts with ⟨_ | f, later⟩
      · rw [forms_of_form_error hform]
        exact ⟨[], ts, rfl, .nil⟩
      · obtain ⟨p, us, rfl, hf, rfl⟩ := (form_eq_ok_iff hts).mp hform
        have hlength : us.length < (p ++ us).length := by
          have hp := List.length_pos_iff.mpr hf.ne_nil
          rw [List.length_append]
          omega
        have hus : ∀ t ∈ us, t.Spelled := fun t ht => hts t (by simp [ht])
        obtain ⟨ps, rest, rfl, hps⟩ := ih _ hlength hus rfl
        rw [forms_of_form hform, ← List.append_assoc]
        exact ⟨p ++ ps, rest, rfl, .cons hf hps⟩

end Parser

theorem Tokens.parse_eq_ok_iff {ts : List Token} (hts : ∀ t ∈ ts, t.Spelled)
    {failure : Option ReadError} {f : Form} {rest : List Token} :
    Tokens.parse ⟨ts, failure⟩ = .ok (f, rest) ↔
      failure = none ∧ ∃ p, ts = p ++ rest ∧ Derives p f := by
  constructor
  · intro h
    rcases hform : Parser.form failure [] ts with ⟨_ | g, later⟩
    · simp only [Tokens.parse, Tokens.form, hform] at h
      cases h
    · obtain ⟨p, us, rfl, hg, rfl⟩ := (Parser.form_eq_ok_iff hts).mp hform
      simp only [Tokens.parse, Tokens.form, hform] at h
      cases failure with
      | some e => cases h
      | none =>
          cases h
          exact ⟨rfl, p, rfl, hg⟩
  · rintro ⟨rfl, p, rfl, hf⟩
    have hform : Parser.form none [] (p ++ rest) = (.ok f, ⟨rest, none⟩) :=
      Parser.form_derives hf [] rest
    simp only [Tokens.parse, Tokens.form, hform]
    rfl

theorem spelled_lex (source : String) : ∀ t ∈ (lex source).ready, t.Spelled :=
  fun _ ht => Token.Lexed.spelled ⟨source, ht⟩

theorem read_eq_ok_iff {source : String} {f : Form} :
    read source = .ok f ↔ (lex source).failure = none ∧ Derives (lex source).ready f := by
  have hparse : (lex source).parse = .ok (f, []) ↔
      (lex source).failure = none ∧ Derives (lex source).ready f := by
    rw [Tokens.parse_eq_ok_iff (spelled_lex source)]
    simp
  rw [← hparse, read]
  constructor
  · intro h
    split at h
    · cases h
    · rename_i g hg
      cases h
      exact hg
    · cases h
  · intro h
    change (lex source).parse = .ok (f, []) at h
    rw [h]

theorem deriveAll_readAll (source : String) :
    ∃ ps rest, (lex source).ready = ps ++ rest ∧ DeriveAll ps (readAll source).1 :=
  Parser.deriveAll_forms (spelled_lex source)

/-- The parser succeeds exactly on the token lists of which a beginning spells a form. There is only
one such beginning, and it spells the same form whatever follows it. -/
theorem parse_accepts_grammar {ts : List Token} (hts : ∀ t ∈ ts, t.Lexed) :
    (∀ (f : Form) (rest : List Token),
      Tokens.parse ⟨ts, none⟩ = .ok (f, rest) ↔ ∃ p, ts = p ++ rest ∧ Derives p f) ∧
    ∀ (p rest : List Token) (f : Form), ts = p ++ rest → Derives p f →
      p ≠ [] ∧
      (∀ (q rest' : List Token) (g : Form), ts = q ++ rest' → Derives q g → q = p ∧ g = f) ∧
      ∀ rest' : List Token, (∀ t ∈ rest', t.Lexed) →
        Tokens.parse ⟨p ++ rest', none⟩ = .ok (f, rest') := by
  have hspelled : ∀ t ∈ ts, t.Spelled := fun t ht => (hts t ht).spelled
  have hparse : ∀ (f : Form) (rest : List Token),
      Tokens.parse ⟨ts, none⟩ = .ok (f, rest) ↔ ∃ p, ts = p ++ rest ∧ Derives p f := by
    intro f rest
    rw [Tokens.parse_eq_ok_iff hspelled]
    simp
  refine ⟨hparse, fun p rest f hp hf => ⟨hf.ne_nil, fun q rest' g hq hg => ?_, fun rest' hrest => ?_⟩⟩
  · -- Both beginnings are what the parser reads, and it gives one answer.
    have hpAnswer := (hparse f rest).mpr ⟨p, hp, hf⟩
    have hqAnswer := (hparse g rest').mpr ⟨q, hq, hg⟩
    rw [hpAnswer] at hqAnswer
    cases hqAnswer
    exact ⟨List.append_cancel_right (hq.symm.trans hp), rfl⟩
  · have hspelled' : ∀ t ∈ p ++ rest', t.Spelled := by
      intro t ht
      rcases List.mem_append.mp ht with ht | ht
      · exact hspelled t (by simp [hp, ht])
      · exact (hrest t ht).spelled
    exact (Tokens.parse_eq_ok_iff hspelled').mpr ⟨rfl, p, rfl, hf⟩

/-- A list with a quote inside, with one token after it and with another. -/
theorem parse_accepts_grammar_nested :
    let a : Symbol := ⟨"a", by decide⟩
    let b : Symbol := ⟨"b", by decide⟩
    let p : List Token :=
      [⟨.lparen, ['(']⟩, ⟨.atom, ['a']⟩, ⟨.quote, ['\'']⟩, ⟨.atom, ['b']⟩, ⟨.rparen, [')']⟩]
    let rest : List Token := [⟨.atom, ['c']⟩]
    let rest' : List Token := [⟨.rparen, [')']⟩]
    let f : Form := .list [.symbol a, .list [.symbol .quote, .symbol b]]
    (∀ t ∈ p ++ rest, t.Lexed) ∧ Tokens.parse ⟨p ++ rest, none⟩ = .ok (f, rest) ∧
      Tokens.parse ⟨p ++ rest', none⟩ = .ok (f, rest') := by
  intro a b p rest rest' f
  have hlex : (lex "(a 'b) c").ready = p ++ rest := by decide +kernel
  have hlexed : ∀ t ∈ p ++ rest, t.Lexed := fun t ht => ⟨"(a 'b) c", hlex ▸ ht⟩
  have ha : Derives [⟨.atom, ['a']⟩] (.symbol a) :=
    .atom (Form.ofAtom_eq_symbol_iff.mpr (by decide +kernel))
  have hb : Derives [⟨.atom, ['b']⟩] (.symbol b) :=
    .atom (Form.ofAtom_eq_symbol_iff.mpr (by decide +kernel))
  have hp : Derives p f := .list (.cons ha (.cons (.quote hb) .nil))
  obtain ⟨hparse, hunique⟩ := parse_accepts_grammar hlexed
  obtain ⟨_, _, hfollow⟩ := hunique p rest f rfl hp
  refine ⟨hlexed, (hparse f rest).mpr ⟨p, rfl, hp⟩, hfollow rest' ?_⟩
  simpa [rest'] using hlexed ⟨.rparen, [')']⟩ (by decide)

end Bakehouse
