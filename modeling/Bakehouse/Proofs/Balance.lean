import Bakehouse.Console.Balance
import Bakehouse.Proofs.ByteLiterals
import Bakehouse.Proofs.EntryPoints

/-!
The balance of parentheses against the lexer. Each of the two goes through a text in its own way; they
stay in step as long as no literal in brackets holds a character that the balance takes for more than
it is. Literals that spell bytes hold none.
-/

namespace Bakehouse

namespace Balance

/-- The characters that the balance takes notice of outside strings and comments. -/
def isMark (c : Char) : Bool :=
  c == '"' || c == ';' || c == '(' || c == ')'

theorem not_isMark_of_not_isDelimiter {c : Char} (h : Lexer.isDelimiter c = false) :
    isMark c = false := by
  simp only [Lexer.isDelimiter, Lexer.isBracket, Bool.or_eq_false_iff] at h
  simp [isMark, h]

theorem not_isMark_of {p : Char → Bool} {c : Char} (h : p c = true)
    (hp : p '"' = false ∧ p ';' = false ∧ p '(' = false ∧ p ')' = false) : isMark c = false := by
  rw [Bool.eq_false_iff]
  intro hmark
  simp only [isMark, Bool.or_eq_true, beq_iff_eq] at hmark
  rcases hmark with ((rfl | rfl) | rfl) | rfl <;> simp [hp] at h

theorem depthFrom_code {c : Char} (h : isMark c = false) (depth : Nat) (cs : List Char) :
    depthFrom .code depth (c :: cs) = depthFrom .code depth cs := by
  simp only [isMark, Bool.or_eq_false_iff, beq_eq_false_iff_ne] at h
  simp [depthFrom, h]

end Balance

open Balance

def Enclosure.isBracketed : Enclosure → Bool
  | text | dishText => false
  | dishBytes | vector => true

/-- If the token is a literal in brackets, there is none of these characters in it. -/
def Token.Plain (t : Token) : Prop :=
  ∀ e : Enclosure, t.kind = .literal e → e.isBracketed = true → ∀ c ∈ t.text, isMark c = false

namespace Form

theorem not_isMark_of_bytes {literal : Enclosure} {cs : List Char} {bs : List UInt8}
    (h : bytes literal cs = .ok bs) : ∀ c ∈ cs, isMark c = false := by
  intro c hc
  rcases isByteSeparator_or_isAsciiDigit h hc with hseparator | hdigit
  · exact not_isMark_of hseparator (by decide)
  · exact not_isMark_of hdigit (by decide)

end Form

theorem Token.plain_enclosed {e : Enclosure} {body : List Char}
    (h : e.isBracketed = true → ∀ c ∈ body, isMark c = false) :
    Plain ⟨.literal e, e.opening ++ (body ++ [e.close])⟩ := by
  rintro _ ⟨⟩ he c hc
  have hends : ∀ c ∈ e.opening ++ [e.close], isMark c = false := by
    cases e with
    | text | dishText => cases he
    | dishBytes | vector => simp [Enclosure.opening, Enclosure.close, isMark]
  simp only [List.forall_mem_append] at hends
  simp only [List.mem_append] at hc
  rcases hc with hc | hc | hc
  · exact hends.1 c hc
  · exact h he c hc
  · exact hends.2 c hc

mutual

theorem Derives.plain {p : List Token} {f : Form} : Derives p f → ∀ t ∈ p, t.Plain
  | .atom _ => by simp [Token.Plain]
  | .text _ => by simp [Token.Plain, Enclosure.isBracketed]
  | .dishText _ => by simp [Token.Plain, Enclosure.isBracketed]
  | .dishBytes h => by
      rintro _ (_ | ⟨_, ⟨⟩⟩)
      exact Token.plain_enclosed (e := .dishBytes) fun _ => Form.not_isMark_of_bytes h
  | .vector h => by
      rintro _ (_ | ⟨_, ⟨⟩⟩)
      exact Token.plain_enclosed (e := .vector) fun _ => Form.not_isMark_of_bytes h
  | .quote h => by simpa [Token.Plain] using h.plain
  | .list h => by
      have hps := h.plain
      simp only [List.forall_mem_cons, List.forall_mem_append]
      exact ⟨nofun, h.plain, nofun, nofun⟩

theorem DeriveAll.plain {ps : List Token} {fs : List Form} : DeriveAll ps fs → ∀ t ∈ ps, t.Plain
  | .nil => by simp
  | .cons h hs => by
      intro t ht
      exact (List.mem_append.mp ht).elim (h.plain t) (hs.plain t)

end

namespace Token

/-- The parentheses that are open after a token, or `none` if it closes one that was not open. -/
def balance (depth : Nat) (t : Token) : Option Nat :=
  match t.kind, depth with
  | .lparen, depth => some (depth + 1)
  | .rparen, 0 => none
  | .rparen, depth + 1 => some depth
  | _, depth => some depth

def count (kind : Kind) (ts : List Token) : Nat :=
  ts.countP (·.kind == kind)

theorem count_append (kind : Kind) (ts us : List Token) :
    count kind (ts ++ us) = count kind ts + count kind us :=
  List.countP_append

theorem balance_eq_some_iff {depth k : Nat} {t : Token} :
    balance depth t = some k ↔ depth + count .lparen [t] = k + count .rparen [t] := by
  rcases t with ⟨kind, text⟩
  cases kind with
  | rparen => cases depth <;> simp [balance, count]
  | _ => simp [balance, count]

theorem balance_eq_none_iff {depth : Nat} {t : Token} :
    balance depth t = none ↔ depth + count .lparen [t] < count .rparen [t] := by
  rcases t with ⟨kind, text⟩
  cases kind with
  | rparen => cases depth <;> simp [balance, count]
  | _ => simp [balance, count]

end Token

/-- The parentheses that are open after the tokens, or `none` if one closes that was not open. -/
def depthAfter (depth : Nat) (ts : List Token) : Option Nat :=
  ts.foldlM Token.balance depth

theorem depthAfter_append (depth : Nat) (ts us : List Token) :
    depthAfter depth (ts ++ us) = (depthAfter depth ts).bind fun k => depthAfter k us :=
  List.foldlM_append

theorem depthAfter_cons (depth : Nat) (t : Token) (ts : List Token) :
    depthAfter depth (t :: ts) = (t.balance depth).bind fun k => depthAfter k ts :=
  List.foldlM_cons

variable {depth k : Nat} {ts : List Token}

theorem count_of_depthAfter (h : depthAfter depth ts = some k) :
    depth + Token.count .lparen ts = k + Token.count .rparen ts := by
  induction ts generalizing depth with
  | nil =>
      cases h
      rfl
  | cons t ts ih =>
      rw [depthAfter_cons, Option.bind_eq_some_iff] at h
      obtain ⟨j, ht, hts⟩ := h
      have hone := Token.balance_eq_some_iff.mp ht
      have hrest := ih hts
      rw [← List.singleton_append, Token.count_append, Token.count_append]
      omega

theorem depthAfter_eq_none_iff :
    depthAfter depth ts = none ↔
      ∃ p, p <+: ts ∧ depth + Token.count .lparen p < Token.count .rparen p := by
  constructor
  · intro h
    induction ts generalizing depth with
    | nil => cases h
    | cons t ts ih =>
        rw [depthAfter_cons] at h
        cases ht : t.balance depth with
        | none =>
            exact ⟨[t], List.prefix_append [t] ts, Token.balance_eq_none_iff.mp ht⟩
        | some j =>
            rw [ht] at h
            obtain ⟨p, hp, hlt⟩ := ih h
            have hone := Token.balance_eq_some_iff.mp ht
            refine ⟨t :: p, (List.prefix_cons_inj t).mpr hp, ?_⟩
            rw [← List.singleton_append, Token.count_append, Token.count_append]
            omega
  · rintro ⟨p, ⟨us, rfl⟩, hlt⟩
    rw [depthAfter_append]
    cases hp : depthAfter depth p with
    | none => rfl
    | some j =>
        have hcount := count_of_depthAfter hp
        omega

theorem depthAfter_zero_eq_none_iff :
    depthAfter 0 ts = none ↔ ∃ p, p <+: ts ∧ Token.count .lparen p < Token.count .rparen p := by
  rw [depthAfter_eq_none_iff]
  simp only [Nat.zero_add]

theorem depthAfter_add (h : depthAfter depth ts = some k) (n : Nat) :
    depthAfter (depth + n) ts = some (k + n) := by
  have hcount := count_of_depthAfter h
  cases hsum : depthAfter (depth + n) ts with
  | none =>
      obtain ⟨p, hp, hlt⟩ := depthAfter_eq_none_iff.mp hsum
      have hnone : depthAfter depth ts = none := depthAfter_eq_none_iff.mpr ⟨p, hp, by omega⟩
      cases hnone.symm.trans h
  | some j =>
      have hcount' := count_of_depthAfter hsum
      rw [Option.some.injEq]
      omega

mutual

theorem Derives.depthAfter {p : List Token} {f : Form} :
    Derives p f → depthAfter 0 p = some 0
  | .atom _ | .text _ | .dishText _ | .dishBytes _ | .vector _ => rfl
  | .quote h => h.depthAfter
  | @Derives.list ps _ h => by
      have hps : Bakehouse.depthAfter 1 ps = some 1 := depthAfter_add h.depthAfter 1
      change Bakehouse.depthAfter 1 (ps ++ [⟨.rparen, [')']⟩]) = some 0
      rw [depthAfter_append, hps]
      rfl

theorem DeriveAll.depthAfter {ps : List Token} {fs : List Form} :
    DeriveAll ps fs → depthAfter 0 ps = some 0
  | .nil => rfl
  | .cons h hs => by
      rw [depthAfter_append, h.depthAfter]
      exact hs.depthAfter

end

namespace Lexer

/-- What the balance takes the next character for. -/
def State.region : State → Region
  | gap | letter | atom _ => .code
  | comment => .comment
  | literal e _ => if e.isBracketed then .code else .string

def State.Plain : State → Prop
  | literal e reversed => e.isBracketed = true → ∀ c ∈ reversed, isMark c = false
  | _ => True

/-- How the balance goes on after tokens. -/
def balanceAfter (ts : List Token) (next : State) (depth : Nat) (cs : List Char) : Int :=
  (depthAfter depth ts).elim (-1) fun k => depthFrom next.region k cs

variable {state next last : State} {c : Char} {ts : List Token} {place : Nat}

theorem depthFrom_start (h : start place c = ⟨ts, .ok next⟩) (depth : Nat) (cs : List Char) :
    depthFrom .code depth (c :: cs) = balanceAfter ts next depth cs := by
  by_cases hblank : Text.isBlank c = true
  · simp only [start, if_pos hblank] at h
    cases h
    exact depthFrom_code (not_isMark_of hblank (by decide)) depth cs
  by_cases hbracket : isBracket c = true
  · simp only [isBracket, Bool.or_eq_true, beq_iff_eq] at hbracket
    rcases hbracket with (((((rfl | rfl) | rfl) | rfl) | rfl) | rfl) | rfl
    · cases h
      rfl
    · cases h
      cases depth <;> rfl
    · cases h
      rfl
    · cases h
    · cases h
      rfl
    · cases h
      rfl
    · cases h
      rfl
  · have hdelimiter : isDelimiter c = false := by simp [isDelimiter, hblank, hbracket]
    rw [depthFrom_code (not_isMark_of_not_isDelimiter hdelimiter)]
    by_cases hd : c = 'd'
    · subst hd
      cases h
      rfl
    · rw [start_of_not_isDelimiter hdelimiter hd] at h
      cases h
      rfl

theorem balanceAfter_append (us : List Token) (depth : Nat) (cs : List Char) :
    balanceAfter (ts ++ us) next depth cs =
      (depthAfter depth ts).elim (-1) fun k => balanceAfter us next k cs := by
  rw [balanceAfter, depthAfter_append]
  cases depthAfter depth ts <;> rfl

theorem depthFrom_continueAtom {reversed : List Char}
    (h : continueAtom place reversed c = ⟨ts, .ok next⟩) (depth : Nat) (cs : List Char) :
    depthFrom .code depth (c :: cs) = balanceAfter ts next depth cs := by
  by_cases hdelimiter : isDelimiter c = true
  · simp only [continueAtom, if_pos hdelimiter, Step.mk.injEq] at h
    obtain ⟨rfl, hnext⟩ := h
    have hstart : start place c = ⟨(start place c).tokens, .ok next⟩ := by rw [← hnext]
    -- The atom in front of these tokens changes nothing.
    exact depthFrom_start hstart depth cs
  · simp only [continueAtom, if_neg hdelimiter] at h
    cases h
    exact depthFrom_code (not_isMark_of_not_isDelimiter (by simpa using hdelimiter)) depth cs

theorem plain_of_step_literal {e : Enclosure} {reversed : List Char}
    (h : step place c (.literal e reversed) = ⟨ts, .ok next⟩) (hts : ∀ t ∈ ts, t.Plain)
    (hnext : next.Plain) : e.isBracketed = true → ∀ d ∈ c :: reversed, isMark d = false := by
  intro he d hd
  simp only [step] at h
  split at h
  · cases h
    exact hts _ List.mem_cons_self e rfl he d (List.mem_reverse.mpr hd)
  · cases h
    exact hnext he d hd

theorem depthFrom_step_literal {e : Enclosure} {reversed : List Char}
    (h : step place c (.literal e reversed) = ⟨ts, .ok next⟩)
    (hc : e.isBracketed = true → isMark c = false) (depth : Nat) (cs : List Char) :
    depthFrom (State.literal e reversed).region depth (c :: cs) = balanceAfter ts next depth cs := by
  simp only [step] at h
  by_cases he : e.isBracketed = true
  · rw [State.region, if_pos he, depthFrom_code (hc he)]
    split at h
    · cases h
      rfl
    · cases h
      simp [balanceAfter, depthAfter, State.region, he]
  · have hclose : e.close = '"' := by
      cases e with
      | text | dishText => rfl
      | dishBytes | vector => exact absurd rfl he
    rw [State.region, if_neg he, depthFrom]
    rw [hclose] at h
    split at h
    · rename_i hc
      cases h
      rw [if_pos hc]
      rfl
    · rename_i hc
      cases h
      rw [if_neg hc]
      simp [balanceAfter, depthAfter, State.region, he]

theorem plain_of_step (h : step place c state = ⟨ts, .ok next⟩) (hts : ∀ t ∈ ts, t.Plain)
    (hnext : next.Plain) : state.Plain := by
  cases state with
  | literal e reversed =>
      intro he d hd
      exact plain_of_step_literal h hts hnext he d (List.mem_cons_of_mem c hd)
  | _ => trivial

/-- The balance takes every step of the lexer, as long as nothing in brackets misleads it. -/
theorem depthFrom_step (h : step place c state = ⟨ts, .ok next⟩) (hts : ∀ t ∈ ts, t.Plain)
    (hnext : next.Plain) (depth : Nat) (cs : List Char) :
    depthFrom state.region depth (c :: cs) = balanceAfter ts next depth cs := by
  cases state with
  | gap => exact depthFrom_start h depth cs
  | comment =>
      simp only [step] at h
      cases h
      by_cases hc : c = '\n'
      · subst hc
        rfl
      · simp [balanceAfter, depthAfter, State.region, depthFrom, hc]
  | letter =>
      simp only [step] at h
      split at h
      · rename_i hquote
        cases h
        cases eq_of_beq hquote
        rfl
      · split at h
        · rename_i hbracket
          cases h
          cases eq_of_beq hbracket
          rfl
        · exact depthFrom_continueAtom h depth cs
  | atom reversed => exact depthFrom_continueAtom h depth cs
  | literal e reversed =>
      exact depthFrom_step_literal h
        (fun he => plain_of_step_literal h hts hnext he c List.mem_cons_self) depth cs

theorem Reads.plain {cs : List Char} (h : Reads state cs ts last) (hts : ∀ t ∈ ts, t.Plain)
    (hlast : last.Plain) : state.Plain := by
  induction h with
  | nil => exact hlast
  | cons h _ ih =>
      simp only [List.forall_mem_append] at hts
      exact plain_of_step (h 0) hts.1 (ih hts.2 hlast)

theorem Reads.depthFrom {cs : List Char} (h : Reads state cs ts last) (hts : ∀ t ∈ ts, t.Plain)
    (hlast : last.Plain) (depth : Nat) (ds : List Char) :
    depthFrom state.region depth (cs ++ ds) = balanceAfter ts last depth ds := by
  induction h generalizing depth with
  | nil => rfl
  | cons h hs ih =>
      simp only [List.forall_mem_append] at hts
      rw [List.cons_append, depthFrom_step (h 0) hts.1 (hs.plain hts.2 hlast), balanceAfter_append,
        balanceAfter]
      simp only [ih hts.2 hlast]

theorem plain_of_finish (h : (finish state).failure = none) : state.Plain := by
  cases state with
  | literal e reversed => cases h
  | _ => trivial

theorem balanceAfter_finish (h : (finish state).failure = none) (ts : List Token) (depth : Nat) :
    balanceAfter ts state depth [] =
      (depthAfter depth (ts ++ (finish state).ready)).elim (-1) fun k => (k : Int) := by
  rw [balanceAfter, depthAfter_append]
  cases depthAfter depth ts with
  | none => rfl
  | some k =>
      cases state with
      | literal e reversed => cases h
      | _ => rfl

end Lexer

theorem parenDepth_of_lex {source : String} (h : (lex source).failure = none)
    (hplain : ∀ t ∈ (lex source).ready, t.Plain) :
    parenDepth source.toList =
      (depthAfter 0 (lex source).ready).elim (-1) fun k => (k : Int) := by
  obtain ⟨ts, last, hreads, hlast⟩ := Lexer.exists_reads h
  have hready : (lex source).ready = ts ++ (Lexer.finish last).ready := by
    rw [lex, hreads.run_self]
    rfl
  rw [hready] at hplain ⊢
  simp only [List.forall_mem_append] at hplain
  have hdepth := hreads.depthFrom hplain.1 (Lexer.plain_of_finish hlast) 0 []
  rw [List.append_nil, Lexer.balanceAfter_finish hlast] at hdepth
  exact hdepth

theorem parenDepth_of_readAll {source : String} (h : (readAll source).2 = none) :
    parenDepth source.toList = 0 := by
  obtain ⟨hlex, hforms⟩ := readAll_eq_iff.mp (Prod.ext rfl h : readAll source = (_, none))
  rw [parenDepth_of_lex hlex hforms.plain, hforms.depthAfter]
  rfl

/-- Outside literals in brackets the balance of a text is that of its tokens. The literals that spell
bytes are no exception, so a text of which all forms can be read is balanced. -/
theorem balance_agrees_with_lexer (source : String) :
    ((lex source).failure = none → (∀ t ∈ (lex source).ready, t.Plain) →
      ((∃ p, p <+: (lex source).ready ∧ Token.count .lparen p < Token.count .rparen p) →
        parenDepth source.toList = -1) ∧
      ((¬∃ p, p <+: (lex source).ready ∧ Token.count .lparen p < Token.count .rparen p) →
        parenDepth source.toList =
          (Token.count .lparen (lex source).ready : Int) -
            Token.count .rparen (lex source).ready)) ∧
    (∀ (e : Enclosure) (body : List Char) (bs : List UInt8), Form.bytes e body = .ok bs →
      Token.Plain ⟨.literal e, e.opening ++ (body ++ [e.close])⟩) ∧
    ((readAll source).2 = none → isBalanced source.toList = true) := by
  refine ⟨fun h hplain => ?_, fun e body bs h => ?_, fun h => ?_⟩
  · rw [parenDepth_of_lex h hplain, ← depthAfter_zero_eq_none_iff]
    refine ⟨fun hearly => ?_, fun hin => ?_⟩
    · rw [hearly]
      rfl
    obtain ⟨k, hk⟩ := Option.ne_none_iff_exists'.mp hin
    have hcount := count_of_depthAfter hk
    rw [hk, Option.elim_some]
    omega
  · exact Token.plain_enclosed fun _ => Form.not_isMark_of_bytes h
  · rw [isBalanced, parenDepth_of_readAll h]
    rfl

/-- Parentheses in a string and in a comment beside those that count, a parenthesis that closes early,
and a text that can be read. -/
theorem balance_agrees_with_lexer_mixed :
    parenDepth "((a \"(\" ; )\n [40, 41])".toList = 1 ∧ parenDepth ")(".toList = -1 ∧
      isBalanced "(a \")\")".toList = true := by
  have hopen : (lex "((a \"(\" ; )\n [40, 41])").ready =
      [⟨.lparen, ['(']⟩, ⟨.lparen, ['(']⟩, ⟨.atom, ['a']⟩, ⟨.literal .text, ['"', '(', '"']⟩,
        ⟨.literal .vector, "[40, 41]".toList⟩, ⟨.rparen, [')']⟩] := by
    decide +kernel
  have hearly : (lex ")(").ready = [⟨.rparen, [')']⟩, ⟨.lparen, ['(']⟩] := by decide +kernel
  refine ⟨?_, ?_, (balance_agrees_with_lexer _).2.2 (by decide +kernel)⟩
  · obtain ⟨_, hdepth⟩ :=
      (balance_agrees_with_lexer "((a \"(\" ; )\n [40, 41])").1 (by decide +kernel) (by
        rw [hopen]
        simp [Token.Plain, Enclosure.isBracketed, isMark])
    rw [hdepth, hopen]
    · rfl
    · rw [hopen]
      rintro ⟨p, hp, hlt⟩
      exact absurd (depthAfter_zero_eq_none_iff.mpr ⟨p, hp, hlt⟩) (by decide)
  · obtain ⟨hdepth, _⟩ :=
      (balance_agrees_with_lexer ")(").1 (by decide +kernel) (by
        rw [hearly]
        simp [Token.Plain])
    refine hdepth ⟨[⟨.rparen, [')']⟩], ?_, by decide⟩
    rw [hearly]
    exact List.prefix_append _ _

end Bakehouse
