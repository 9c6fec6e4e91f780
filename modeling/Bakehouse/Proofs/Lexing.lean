import Bakehouse.Reader.Lexer

/-!
The lexer against a description of its output. A text is tiled by its tokens, with gaps of blanks and
comments around them, up to the place where the lexer stops. Every text has such a tiling, and the
lexer gives the tokens of any tiling, so it finds the only one.
-/

namespace Bakehouse

/-- The characters that a literal opens with. -/
def Enclosure.opening : Enclosure → List Char
  | text => ['"']
  | dishText => ['d', '"']
  | dishBytes => ['d', '[']
  | vector => ['[']

namespace Token

/-- Tokens with a text that their kind can have. -/
inductive Spelled : Token → Prop
  | quote : Spelled ⟨.quote, ['\'']⟩
  | lparen : Spelled ⟨.lparen, ['(']⟩
  | rparen : Spelled ⟨.rparen, [')']⟩
  | literal (e : Enclosure) {body : List Char} (hbody : e.close ∉ body) :
      Spelled ⟨.literal e, e.opening ++ (body ++ [e.close])⟩
  | atom {c : Char} {cs : List Char} (hcs : ∀ d ∈ c :: cs, Lexer.isDelimiter d = false) :
      Spelled ⟨.atom, c :: cs⟩

/-- An atom goes on up to a delimiter or the end, and a `d` before a quote or a bracket is none. -/
def EndsBefore (t : Token) (rest : List Char) : Prop :=
  t.kind = .atom → ∀ c ∈ rest.head?,
    Lexer.isDelimiter c = true ∧ (t.text = ['d'] → c ≠ '"' ∧ c ≠ '[')

theorem Spelled.text_ne_nil {t : Token} (h : t.Spelled) : t.text ≠ [] := by
  cases h with
  | literal e _ => cases e <;> simp [Enclosure.opening]
  | _ => simp

theorem spelled_atom_iff {text : List Char} :
    Spelled ⟨.atom, text⟩ ↔ text ≠ [] ∧ text.any Lexer.isDelimiter = false := by
  rw [List.any_eq_false]
  simp only [Bool.not_eq_true]
  constructor
  · rintro ⟨⟩
    rename_i h
    exact ⟨by simp, h⟩
  · rintro ⟨hne, h⟩
    obtain ⟨c, cs, rfl⟩ := List.exists_cons_of_ne_nil hne
    exact .atom h

theorem Spelled.close_notMem {e : Enclosure} {body : List Char}
    (h : Spelled ⟨.literal e, e.opening ++ (body ++ [e.close])⟩) : e.close ∉ body := by
  generalize htext : e.opening ++ (body ++ [e.close]) = text at h
  cases h with
  | literal _ hbody =>
      rwa [List.append_cancel_right (List.append_cancel_left htext)]

end Token

namespace Lexer

/-- Blanks and comments in front of `after`. A comment goes on up to a new line or the end. -/
inductive Gap (after : List Char) : List Char → Prop
  | nil : Gap after []
  | blank {c : Char} {g : List Char} (hc : Text.isBlank c = true) (hg : Gap after g) :
      Gap after (c :: g)
  | comment {body g : List Char} (hbody : '\n' ∉ body) (hend : ∀ c ∈ (g ++ after).head?, c = '\n')
      (hg : Gap after g) : Gap after (';' :: (body ++ g))

/-- A text is made of tokens, of the gaps around them, and of a rest. -/
inductive Tiles : List Token → List Char → List Char → Prop
  | done {g rest : List Char} (hg : Gap rest g) : Tiles [] (g ++ rest) rest
  | token {t : Token} {ts : List Token} {g cs rest : List Char} (hg : Gap (t.text ++ cs) g)
      (ht : t.Spelled) (hend : t.EndsBefore cs) (h : Tiles ts cs rest) :
      Tiles (t :: ts) (g ++ (t.text ++ cs)) rest

/-- Where the lexer stops, and with which error: at the end, at a literal that is not closed, or at a
bracket that closes nothing. -/
inductive Stops (place : Nat) : List Char → Option ReadError → Prop
  | finish : Stops place [] none
  | unterminated (e : Enclosure) {body : List Char} (hbody : e.close ∉ body) :
      Stops place (e.opening ++ body) (some (.unterminated e))
  | bracket (rest : List Char) : Stops place (']' :: rest) (some (.unexpectedCharacter ']' place))

theorem Stops.none_iff {place : Nat} {rest : List Char} {failure : Option ReadError}
    (h : Stops place rest failure) : failure = none ↔ rest = [] := by
  cases h with
  | finish => simp
  | unterminated e _ => cases e <;> simp [Enclosure.opening]
  | bracket rest => simp

/-- The tokens `ts`, and then those that come later. -/
def followed (ts : List Token) (later : Tokens) : Tokens :=
  ⟨ts ++ later.ready, later.failure⟩

@[simp] theorem followed_nil (later : Tokens) : followed [] later = later := rfl

@[simp] theorem followed_followed (ts us : List Token) (later : Tokens) :
    followed ts (followed us later) = followed (ts ++ us) later := by
  simp [followed]

theorem run_cons {place : Nat} {c : Char} {state next : State} {ts : List Token}
    (h : step place c state = ⟨ts, .ok next⟩) (cs : List Char) :
    run place state (c :: cs) = followed ts (run (place + 1) next cs) := by
  simp only [run, h]
  rfl

theorem not_isBlank_of_not_isDelimiter {c : Char} (h : isDelimiter c = false) :
    Text.isBlank c = false := by
  simp only [isDelimiter, Bool.or_eq_false_iff] at h
  exact h.1

theorem run_blank {c : Char} (hc : Text.isBlank c = true) (place : Nat) (cs : List Char) :
    run place .gap (c :: cs) = run (place + 1) .gap cs := by
  have hstep : step place c .gap = ⟨[], .ok .gap⟩ := by simp [step, start, hc]
  rw [run_cons hstep, followed_nil]

theorem run_comment {body : List Char} (hbody : '\n' ∉ body) {cs : List Char}
    (hend : ∀ c ∈ cs.head?, c = '\n') (place : Nat) :
    run place .comment (body ++ cs) = run (place + body.length) .gap cs := by
  induction body generalizing place with
  | nil =>
      -- The line feed ends the comment and is a blank of the gap as well.
      cases cs with
      | nil => rfl
      | cons c cs =>
          obtain rfl : c = '\n' := hend c rfl
          rw [List.nil_append, run_blank (by decide)]
          rfl
  | cons c body ih =>
      simp only [List.mem_cons, not_or] at hbody
      have hstep : step place c .comment = ⟨[], .ok .comment⟩ := by
        simp [step, Ne.symm hbody.1]
      rw [List.cons_append, run_cons hstep, ih hbody.2]
      simp only [followed_nil, List.length_cons]
      congr 1
      omega

theorem run_gap {after g : List Char} (hg : Gap after g) (place : Nat) :
    run place .gap (g ++ after) = run (place + g.length) .gap after := by
  induction hg generalizing place with
  | nil => rfl
  | blank hc _ ih =>
      rw [List.cons_append, run_blank hc, ih]
      simp only [List.length_cons]
      congr 1
      omega
  | @comment body g hbody hend _ ih =>
      have hstep : step place ';' .gap = ⟨[], .ok .comment⟩ := rfl
      rw [List.cons_append, run_cons hstep, List.append_assoc, run_comment hbody hend, ih]
      simp only [followed_nil, List.length_cons, List.length_append]
      congr 1
      omega

theorem run_opening (e : Enclosure) (cs : List Char) (place : Nat) :
    run place .gap (e.opening ++ cs) =
      run (place + e.opening.length) (.literal e e.opening.reverse) cs := by
  cases e <;> rfl

theorem run_literal {e : Enclosure} {body : List Char} (hbody : e.close ∉ body)
    (reversed cs : List Char) (place : Nat) :
    run place (.literal e reversed) (body ++ e.close :: cs) =
      followed [⟨.literal e, reversed.reverse ++ (body ++ [e.close])⟩]
        (run (place + body.length + 1) .gap cs) := by
  induction body generalizing reversed place with
  | nil =>
      refine run_cons ?_ cs
      simp [step]
  | cons c body ih =>
      simp only [List.mem_cons, not_or] at hbody
      have hstep : step place c (.literal e reversed) = ⟨[], .ok (.literal e (c :: reversed))⟩ := by
        simp [step, Ne.symm hbody.1]
      rw [List.cons_append, run_cons hstep, ih hbody.2]
      simp only [followed_nil, List.reverse_cons, List.append_assoc, List.cons_append,
        List.length_cons]
      congr 2
      omega

theorem run_unterminated {e : Enclosure} {body : List Char} (hbody : e.close ∉ body)
    (reversed : List Char) (place : Nat) :
    run place (.literal e reversed) body = ⟨[], some (.unterminated e)⟩ := by
  induction body generalizing reversed place with
  | nil => rfl
  | cons c body ih =>
      simp only [List.mem_cons, not_or] at hbody
      have hstep : step place c (.literal e reversed) = ⟨[], .ok (.literal e (c :: reversed))⟩ := by
        simp [step, Ne.symm hbody.1]
      rw [run_cons hstep, ih hbody.2, followed_nil]

theorem run_continueAtom {state : State} (reversed : List Char) {place : Nat} {c : Char}
    (h : step place c state = continueAtom place reversed c) (hc : isDelimiter c = true)
    (cs : List Char) :
    run place state (c :: cs) = followed [atomToken reversed] (run place .gap (c :: cs)) := by
  have hgap : step place c .gap = start place c := rfl
  simp only [run, h, hgap, continueAtom, if_pos hc]
  cases (start place c).next <;> rfl

theorem run_atom {word cs : List Char} (hword : ∀ c ∈ word, isDelimiter c = false)
    (hend : ∀ c ∈ cs.head?, isDelimiter c = true) (reversed : List Char) (place : Nat) :
    run place (.atom reversed) (word ++ cs) =
      followed [⟨.atom, reversed.reverse ++ word⟩] (run (place + word.length) .gap cs) := by
  induction word generalizing reversed place with
  | nil =>
      rw [List.append_nil]
      cases cs with
      | nil => rfl
      | cons c cs => exact run_continueAtom reversed rfl (hend c rfl) cs
  | cons c word ih =>
      simp only [List.forall_mem_cons] at hword
      have hstep : step place c (.atom reversed) = ⟨[], .ok (.atom (c :: reversed))⟩ := by
        simp [step, continueAtom, hword.1]
      rw [List.cons_append, run_cons hstep, ih hword.2]
      simp only [followed_nil, List.reverse_cons, List.append_assoc, List.singleton_append,
        List.length_cons]
      congr 2
      omega

theorem start_of_not_isDelimiter {c : Char} (hc : isDelimiter c = false) (hd : c ≠ 'd')
    (place : Nat) : start place c = ⟨[], .ok (.atom [c])⟩ := by
  have hblank := not_isBlank_of_not_isDelimiter hc
  simp only [isDelimiter, isBracket, Bool.or_eq_false_iff] at hc
  simp [start, hblank, hc, hd]

theorem run_atomToken {c : Char} {cs rest : List Char}
    (hcs : ∀ d ∈ c :: cs, isDelimiter d = false)
    (hend : Token.EndsBefore ⟨.atom, c :: cs⟩ rest) (place : Nat) :
    run place .gap (c :: cs ++ rest) =
      followed [⟨.atom, c :: cs⟩] (run (place + (cs.length + 1)) .gap rest) := by
  have hdelimiter : ∀ d ∈ rest.head?, isDelimiter d = true := fun d hd => (hend rfl d hd).1
  simp only [List.forall_mem_cons] at hcs
  by_cases hd : c = 'd'
  · subst hd
    have hstep : step place 'd' .gap = ⟨[], .ok .letter⟩ := rfl
    rw [List.cons_append, run_cons hstep, followed_nil]
    -- What follows the letter decides whether it starts a literal, a longer atom or stands alone.
    cases cs with
    | nil =>
        cases rest with
        | nil => rfl
        | cons d rest =>
            obtain ⟨hquote, hbracket⟩ := (hend rfl d rfl).2 rfl
            refine run_continueAtom ['d'] ?_ (hdelimiter d rfl) rest
            simp [step, hquote, hbracket]
    | cons d cs =>
        simp only [List.forall_mem_cons] at hcs
        have hquote : d ≠ '"' := by
          rintro rfl
          exact absurd hcs.2.1 (by decide)
        have hbracket : d ≠ '[' := by
          rintro rfl
          exact absurd hcs.2.1 (by decide)
        have hstep' : step (place + 1) d .letter = ⟨[], .ok (.atom [d, 'd'])⟩ := by
          simp [step, hquote, hbracket, continueAtom, hcs.2.1]
        rw [List.cons_append, run_cons hstep', followed_nil, run_atom hcs.2.2 hdelimiter]
        simp only [List.reverse_cons, List.reverse_nil, List.nil_append, List.cons_append,
          List.length_cons]
        congr 2
        omega
  · have hstep : step place c .gap = ⟨[], .ok (.atom [c])⟩ :=
      start_of_not_isDelimiter hcs.1 hd place
    rw [List.cons_append, run_cons hstep, followed_nil, run_atom hcs.2 hdelimiter]
    simp only [List.reverse_cons, List.reverse_nil, List.nil_append, List.cons_append]
    congr 2
    omega

theorem run_token {t : Token} (ht : t.Spelled) {cs : List Char} (hend : t.EndsBefore cs)
    (place : Nat) :
    run place .gap (t.text ++ cs) = followed [t] (run (place + t.text.length) .gap cs) := by
  cases ht with
  | quote | lparen | rparen => rfl
  | literal e hbody =>
      simp only [List.append_assoc, List.singleton_append]
      rw [run_opening, run_literal hbody]
      simp only [List.reverse_reverse, List.length_append, List.length_cons, List.length_nil]
      congr 2
      omega
  | atom hcs => exact run_atomToken hcs hend place

theorem run_tiles {ts : List Token} {cs rest : List Char} (h : Tiles ts cs rest) (place : Nat) :
    ∃ n, n + rest.length = cs.length ∧
      run place .gap cs = followed ts (run (place + n) .gap rest) := by
  induction h generalizing place with
  | @done g rest hg =>
      refine ⟨g.length, by simp, ?_⟩
      rw [run_gap hg, followed_nil]
  | @token t ts g cs rest hg ht hend _ ih =>
      obtain ⟨n, hn, hrun⟩ := ih (place + g.length + t.text.length)
      refine ⟨g.length + t.text.length + n, ?_, ?_⟩
      · simp only [List.length_append]
        omega
      · rw [run_gap hg, run_token ht hend, hrun, followed_followed, List.singleton_append]
        congr 2
        omega

theorem run_stops {place : Nat} {rest : List Char} {failure : Option ReadError}
    (h : Stops place rest failure) : run place .gap rest = ⟨[], failure⟩ := by
  cases h with
  | finish => rfl
  | unterminated e hbody => rw [run_opening, run_unterminated hbody]
  | bracket rest => rfl

theorem Tiles.blank {ts : List Token} {c : Char} {cs rest : List Char}
    (hc : Text.isBlank c = true) (h : Tiles ts cs rest) : Tiles ts (c :: cs) rest := by
  cases h with
  | done hg => exact .done (.blank hc hg)
  | token hg ht hend h => exact .token (.blank hc hg) ht hend h

theorem Tiles.comment {ts : List Token} {body cs rest : List Char} (hbody : '\n' ∉ body)
    (hend : ∀ c ∈ cs.head?, c = '\n') (h : Tiles ts cs rest) :
    Tiles ts (';' :: (body ++ cs)) rest := by
  cases h with
  | done hg =>
      rw [← List.append_assoc]
      exact .done (.comment hbody hend hg)
  | token hg ht hend' h =>
      rw [← List.append_assoc]
      exact .token (.comment hbody hend hg) ht hend' h

theorem Tiles.cons {t : Token} {ts : List Token} {cs rest : List Char} (ht : t.Spelled)
    (hend : t.EndsBefore cs) (h : Tiles ts cs rest) : Tiles (t :: ts) (t.text ++ cs) rest :=
  .token .nil ht hend h

/-- The longest beginning of a text whose characters all have a property. -/
theorem exists_run (p : Char → Bool) (cs : List Char) :
    ∃ word rest, cs = word ++ rest ∧ (∀ c ∈ word, p c = true) ∧ ∀ c ∈ rest.head?, p c = false := by
  refine ⟨cs.takeWhile p, cs.dropWhile p, List.takeWhile_append_dropWhile.symm, ?_, ?_⟩
  · exact List.all_eq_true.mp List.all_takeWhile
  · intro c hc
    have hnot := List.head?_dropWhile_not p cs
    rwa [hc] at hnot

/-- A text that opens a literal either closes it or cannot be read further. -/
theorem exists_tiles_opening (e : Enclosure) (cs : List Char)
    (ih : ∀ ds : List Char, ds.length < (e.opening ++ cs).length →
      ∃ ts rest, Tiles ts ds rest ∧ ∀ place, ∃ failure, Stops place rest failure) :
    ∃ ts rest, Tiles ts (e.opening ++ cs) rest ∧ ∀ place, ∃ failure, Stops place rest failure := by
  by_cases hclose : e.close ∈ cs
  · obtain ⟨body, ds, rfl, hbody⟩ := List.eq_append_cons_of_mem hclose
    have hlength : ds.length < (e.opening ++ (body ++ e.close :: ds)).length := by
      simp only [List.length_append, List.length_cons]
      omega
    obtain ⟨ts, rest, htiles, hstops⟩ := ih ds hlength
    have hcons := Tiles.cons (.literal e hbody) (by rintro ⟨⟩) htiles
    simp only [List.append_assoc, List.singleton_append] at hcons
    exact ⟨_, rest, hcons, hstops⟩
  · exact ⟨[], e.opening ++ cs, .done .nil, fun _ => ⟨_, .unterminated e hclose⟩⟩

theorem exists_tiles_atom {c : Char} (cs : List Char) (hc : isDelimiter c = false)
    (hliteral : c = 'd' → ∀ d ∈ cs.head?, d ≠ '"' ∧ d ≠ '[')
    (ih : ∀ ds : List Char, ds.length < (c :: cs).length →
      ∃ ts rest, Tiles ts ds rest ∧ ∀ place, ∃ failure, Stops place rest failure) :
    ∃ ts rest, Tiles ts (c :: cs) rest ∧ ∀ place, ∃ failure, Stops place rest failure := by
  obtain ⟨word, ds, rfl, hword, hrest⟩ := exists_run (fun d => !isDelimiter d) cs
  simp only [Bool.not_eq_true', Bool.not_eq_false'] at hword hrest
  have hlength : ds.length < (c :: (word ++ ds)).length := by
    simp only [List.length_cons, List.length_append]
    omega
  obtain ⟨ts, rest, htiles, hstops⟩ := ih ds hlength
  refine ⟨_, rest, Tiles.cons (t := ⟨.atom, c :: word⟩) (.atom ?_) ?_ htiles, hstops⟩
  · simpa [hc] using hword
  · rintro - d hd
    refine ⟨hrest d hd, fun htext => ?_⟩
    simp only [List.cons.injEq] at htext
    obtain ⟨rfl, rfl⟩ := htext
    exact hliteral rfl d hd

theorem exists_tiles (cs : List Char) :
    ∃ ts rest, Tiles ts cs rest ∧ ∀ place, ∃ failure, Stops place rest failure := by
  induction hn : cs.length using Nat.strongRecOn generalizing cs with
  | ind n ih =>
      subst hn
      have ih' : ∀ ds : List Char, ds.length < cs.length →
          ∃ ts rest, Tiles ts ds rest ∧ ∀ place, ∃ failure, Stops place rest failure :=
        fun ds hds => ih _ hds ds rfl
      rcases cs with _ | ⟨c, cs⟩
      · exact ⟨[], [], .done .nil, fun _ => ⟨none, .finish⟩⟩
      have hnext := ih' cs (by simp)
      by_cases hblank : Text.isBlank c = true
      · obtain ⟨ts, rest, htiles, hstops⟩ := hnext
        exact ⟨ts, rest, htiles.blank hblank, hstops⟩
      by_cases hbracket : isBracket c = true
      · simp only [isBracket, Bool.or_eq_true, beq_iff_eq] at hbracket
        rcases hbracket with (((((rfl | rfl) | rfl) | rfl) | rfl) | rfl) | rfl
        · obtain ⟨ts, rest, htiles, hstops⟩ := hnext
          exact ⟨_, rest, .cons .lparen (by rintro ⟨⟩) htiles, hstops⟩
        · obtain ⟨ts, rest, htiles, hstops⟩ := hnext
          exact ⟨_, rest, .cons .rparen (by rintro ⟨⟩) htiles, hstops⟩
        · exact exists_tiles_opening .vector cs ih'
        · exact ⟨[], _, .done .nil, fun _ => ⟨_, .bracket cs⟩⟩
        · obtain ⟨ts, rest, htiles, hstops⟩ := hnext
          exact ⟨_, rest, .cons .quote (by rintro ⟨⟩) htiles, hstops⟩
        · exact exists_tiles_opening .text cs ih'
        · obtain ⟨body, ds, rfl, hbody, hrest⟩ := exists_run (fun d => d != '\n') cs
          have hlength : ds.length < (';' :: (body ++ ds)).length := by
            simp only [List.length_cons, List.length_append]
            omega
          obtain ⟨ts, rest, htiles, hstops⟩ := ih' ds hlength
          refine ⟨ts, rest, htiles.comment ?_ ?_, hstops⟩
          · intro hmem
            simpa using hbody _ hmem
          · simpa using hrest
      have hc : isDelimiter c = false := by simp [isDelimiter, hblank, hbracket]
      by_cases hliteral : c = 'd' ∧ ∃ d ∈ cs.head?, d = '"' ∨ d = '['
      · obtain ⟨rfl, d, hd, hopens⟩ := hliteral
        obtain ⟨cs, rfl⟩ := List.head?_eq_some_iff.mp hd
        rcases hopens with rfl | rfl
        · exact exists_tiles_opening .dishText cs ih'
        · exact exists_tiles_opening .dishBytes cs ih'
      · refine exists_tiles_atom cs hc (fun hd d hmem => ?_) ih'
        simp only [not_and, not_exists, not_or] at hliteral
        exact hliteral hd d hmem

theorem Tiles.spelled {ts : List Token} {cs rest : List Char} (h : Tiles ts cs rest) :
    ∀ t ∈ ts, t.Spelled := by
  induction h with
  | done _ => simp
  | token _ ht _ _ ih => simpa [ht] using ih

end Lexer

open Lexer

/-- Tokens that some text has. -/
def Token.Lexed (t : Token) : Prop :=
  ∃ source, t ∈ (lex source).ready

theorem lex_ofList (cs : List Char) : lex (String.ofList cs) = run 0 .gap cs := by
  simp only [lex, String.toList_ofList]

theorem lex_eq_of_tiles {source : String} {ts : List Token} {rest : List Char}
    {failure : Option ReadError} (htiles : Tiles ts source.toList rest)
    (hstops : Stops (source.length - rest.length) rest failure) : lex source = ⟨ts, failure⟩ := by
  obtain ⟨n, hn, hrun⟩ := run_tiles htiles 0
  have hplace : 0 + n = source.length - rest.length := by
    rw [← String.length_toList]
    omega
  rw [lex, hrun, hplace, run_stops hstops]
  simp [followed]

theorem exists_tiles_lex (source : String) :
    ∃ rest, Tiles (lex source).ready source.toList rest ∧
      Stops (source.length - rest.length) rest (lex source).failure := by
  obtain ⟨ts, rest, htiles, hstops⟩ := exists_tiles source.toList
  obtain ⟨failure, hfailure⟩ := hstops (source.length - rest.length)
  rw [lex_eq_of_tiles htiles hfailure]
  exact ⟨rest, htiles, hfailure⟩

theorem Token.Lexed.spelled {t : Token} (h : t.Lexed) : t.Spelled := by
  obtain ⟨source, ht⟩ := h
  obtain ⟨rest, htiles, _⟩ := exists_tiles_lex source
  exact htiles.spelled t ht

theorem message_unexpectedBracket (place : Nat) :
    (ReadError.unexpectedCharacter ']' place).message =
      "unexpected character ']' at " ++ toString place := by
  have hmessage : (ReadError.unexpectedCharacter ']' place).message =
      "unexpected character " ++ Text.quoted (String.ofList [']']) ++ s!" at {place}" := rfl
  have hquoted : Text.quoted (String.ofList [']']) = "']'" := by decide +kernel
  have htext : "unexpected character ']' at " = "unexpected character " ++ "']'" ++ " at " := by
    decide
  rw [hmessage, hquoted, htext]
  simp only [String.append_assoc, toString]

/-- The tokens of a text, the gaps around them and a rest make up the whole text. The rest is empty
unless the lexer gives up, which it does only at a literal that is not closed and at a closing
bracket. -/
theorem lex_loses_nothing (source : String) :
    ∃ rest, Tiles (lex source).ready source.toList rest ∧
      (∀ t ∈ (lex source).ready, t.text ≠ [] ∧ t.Spelled) ∧
      ((lex source).failure = none ↔ rest = []) ∧
      ∀ e, (lex source).failure = some e →
        (∃ body, rest = 'd' :: '"' :: body ∧ '"' ∉ body ∧ e = .unterminated .dishText ∧
          e.message = "unterminated dish literal") ∨
        (∃ body, rest = 'd' :: '[' :: body ∧ ']' ∉ body ∧ e = .unterminated .dishBytes ∧
          e.message = "unterminated byte literal, expected ']'") ∨
        (∃ body, rest = '[' :: body ∧ ']' ∉ body ∧ e = .unterminated .vector ∧
          e.message = "unterminated vector literal, expected ']'") ∨
        (∃ body, rest = '"' :: body ∧ '"' ∉ body ∧ e = .unterminated .text ∧
          e.message = "unterminated string, expected '\"'") ∨
        ∃ body, rest = ']' :: body ∧
          e = .unexpectedCharacter ']' (source.length - rest.length) ∧
          e.message = "unexpected character ']' at " ++ toString (source.length - rest.length) := by
  obtain ⟨rest, htiles, hstops⟩ := exists_tiles_lex source
  refine ⟨rest, htiles, fun t ht => ?_, hstops.none_iff, fun e he => ?_⟩
  · have hspelled := htiles.spelled t ht
    exact ⟨hspelled.text_ne_nil, hspelled⟩
  · rw [he] at hstops
    cases hstops with
    | unterminated literal hbody =>
        cases literal with
        | dishText => exact .inl ⟨_, rfl, hbody, rfl, rfl⟩
        | dishBytes => exact .inr (.inl ⟨_, rfl, hbody, rfl, rfl⟩)
        | vector => exact .inr (.inr (.inl ⟨_, rfl, hbody, rfl, rfl⟩))
        | text => exact .inr (.inr (.inr (.inl ⟨_, rfl, hbody, rfl, rfl⟩)))
    | bracket body =>
        exact .inr (.inr (.inr (.inr ⟨body, rfl, rfl, message_unexpectedBracket _⟩)))

end Bakehouse
