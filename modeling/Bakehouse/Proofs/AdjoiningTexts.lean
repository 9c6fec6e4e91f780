import Bakehouse.Proofs.Lexing

namespace Bakehouse

/-- The error as it shows when `n` characters stand in front of the text. -/
def ReadError.moved (n : Nat) : ReadError → ReadError
  | unexpectedCharacter c place => unexpectedCharacter c (n + place)
  | e => e

def Tokens.moved (n : Nat) (ts : Tokens) : Tokens :=
  ⟨ts.ready, ts.failure.map (.moved n)⟩

namespace Lexer

theorem start_of_ne {c : Char} (hc : c ≠ ']') :
    ∃ ts next, ∀ place, start place c = ⟨ts, .ok next⟩ := by
  simp only [start, beq_iff_eq, if_neg hc]
  repeat' split
  all_goals exact ⟨_, _, fun _ => rfl⟩

theorem continueAtom_cases (reversed : List Char) (c : Char) :
    (∃ ts next, ∀ place, continueAtom place reversed c = ⟨ts, .ok next⟩) ∨
      ∃ ts, ∀ place, continueAtom place reversed c =
        ⟨ts, .error (.unexpectedCharacter c place)⟩ := by
  by_cases hdelimiter : isDelimiter c = true
  · simp only [continueAtom, if_pos hdelimiter]
    by_cases hc : c = ']'
    · subst hc
      exact .inr ⟨[atomToken reversed], fun _ => rfl⟩
    · obtain ⟨ts, next, h⟩ := start_of_ne hc
      simp only [h]
      exact .inl ⟨_, _, fun _ => rfl⟩
  · simp only [continueAtom, if_neg hdelimiter]
    exact .inl ⟨_, _, fun _ => rfl⟩

/-- A step depends on the place only in the error that it may end with. -/
theorem step_cases (state : State) (c : Char) :
    (∃ ts next, ∀ place, step place c state = ⟨ts, .ok next⟩) ∨
      ∃ ts, ∀ place, step place c state = ⟨ts, .error (.unexpectedCharacter c place)⟩ := by
  cases state with
  | gap =>
      by_cases hc : c = ']'
      · subst hc
        exact .inr ⟨[], fun _ => rfl⟩
      · exact .inl (start_of_ne hc)
  | comment => exact .inl ⟨_, _, fun _ => rfl⟩
  | letter =>
      simp only [step]
      split
      · exact .inl ⟨_, _, fun _ => rfl⟩
      · split
        · exact .inl ⟨_, _, fun _ => rfl⟩
        · exact continueAtom_cases ['d'] c
  | atom reversed => exact continueAtom_cases reversed c
  | literal enclosure reversed =>
      simp only [step]
      split
      · exact .inl ⟨_, _, fun _ => rfl⟩
      · exact .inl ⟨_, _, fun _ => rfl⟩

/-- Reading the characters leads from the first state to the second and completes the tokens. -/
inductive Reads : State → List Char → List Token → State → Prop
  | nil (state : State) : Reads state [] [] state
  | cons {state next last : State} {c : Char} {cs : List Char} {ts us : List Token}
      (h : ∀ place, step place c state = ⟨ts, .ok next⟩) (hs : Reads next cs us last) :
      Reads state (c :: cs) (ts ++ us) last

variable {state last : State} {cs ds : List Char} {ts : List Token}

theorem Reads.run (h : Reads state cs ts last) (ds : List Char) (place : Nat) :
    run place state (cs ++ ds) = followed ts (run (place + cs.length) last ds) := by
  induction h generalizing place with
  | nil state => rfl
  | cons h _ ih =>
      rw [List.cons_append, run_cons (h place), ih, followed_followed, List.length_cons]
      congr 2
      omega

theorem Reads.run_self (h : Reads state cs ts last) (place : Nat) :
    Lexer.run place state cs = followed ts (finish last) := by
  have hrun := h.run [] place
  rwa [List.append_nil] at hrun

theorem Reads.split (h : Reads state (cs ++ ds) ts last) :
    ∃ before after mid, ts = before ++ after ∧ Reads state cs before mid ∧
      Reads mid ds after last := by
  induction cs generalizing state ts with
  | nil => exact ⟨[], ts, state, rfl, .nil state, h⟩
  | cons c cs ih =>
      cases h with
      | @cons _ next _ _ _ first rest h hs =>
          obtain ⟨before, after, mid, rfl, hbefore, hafter⟩ := ih hs
          exact ⟨first ++ before, after, mid, (List.append_assoc _ _ _).symm, .cons h hbefore,
            hafter⟩

/-- A text can be read to its end, or there is a character in it at which reading stops whatever
follows. -/
theorem reads_or_stops (state : State) (cs : List Char) :
    (∃ ts last, Reads state cs ts last) ∨
      ∀ place, ∃ ts e, ∀ ds, run place state (cs ++ ds) = ⟨ts, some e⟩ := by
  induction cs generalizing state with
  | nil => exact .inl ⟨[], state, .nil state⟩
  | cons c cs ih =>
      rcases step_cases state c with ⟨ts, next, h⟩ | ⟨ts, h⟩
      · rcases ih next with ⟨us, last, hs⟩ | hstop
        · exact .inl ⟨ts ++ us, last, .cons h hs⟩
        · refine .inr fun place => ?_
          obtain ⟨us, e, hs⟩ := hstop (place + 1)
          refine ⟨ts ++ us, e, fun ds => ?_⟩
          rw [List.cons_append, run_cons (h place), hs]
          rfl
      · refine .inr fun place => ⟨ts, .unexpectedCharacter c place, fun ds => ?_⟩
        simp only [List.cons_append, Lexer.run, h]

theorem exists_reads {place : Nat} (h : (run place state cs).failure = none) :
    ∃ ts last, Reads state cs ts last ∧ (finish last).failure = none := by
  rcases reads_or_stops state cs with ⟨ts, last, hreads⟩ | hstop
  · rw [hreads.run_self] at h
    exact ⟨ts, last, hreads, h⟩
  · obtain ⟨ts, e, hrun⟩ := hstop place
    have hself := hrun []
    rw [List.append_nil] at hself
    rw [hself] at h
    cases h

theorem run_moved (n place : Nat) (state : State) (cs : List Char) :
    run (n + place) state cs = (run place state cs).moved n := by
  induction cs generalizing place state with
  | nil => cases state <;> rfl
  | cons c cs ih =>
      rcases step_cases state c with ⟨ts, next, h⟩ | ⟨ts, h⟩
      · rw [run_cons (h _), run_cons (h _), Nat.add_assoc, ih]
        rfl
      · simp only [run, h]
        rfl

/-- After a line feed the lexer is between tokens, unless it was in a literal. -/
theorem run_lineFeed (h : (finish state).failure = none) (ds : List Char) (place : Nat) :
    run place state ('\n' :: ds) = followed (finish state).ready (run (place + 1) .gap ds) := by
  have hatom (reversed : List Char) {state : State}
      (hstep : step place '\n' state = continueAtom place reversed '\n') :
      run place state ('\n' :: ds) = followed [atomToken reversed] (run (place + 1) .gap ds) := by
    rw [run_continueAtom reversed hstep (by decide), run_blank (by decide)]
  cases state with
  | gap => exact run_blank (by decide) place ds
  | comment => rfl
  | letter => exact hatom ['d'] rfl
  | atom reversed => exact hatom reversed rfl
  | literal enclosure reversed => cases h

theorem run_append_lineFeed {place : Nat} (h : (run place state cs).failure = none)
    (ds : List Char) :
    run place state (cs ++ '\n' :: ds) =
      followed (run place state cs).ready (run (place + cs.length + 1) .gap ds) := by
  obtain ⟨ts, last, hreads, hlast⟩ := exists_reads h
  rw [hreads.run, hreads.run_self, run_lineFeed hlast, followed_followed]
  rfl

/-- What cannot be read is not repaired by characters that close no literal. -/
theorem failure_append {place : Nat} (h : (run place state cs).failure ≠ none)
    (hds : ∀ e : Enclosure, e.close ∉ ds) : (run place state (cs ++ ds)).failure ≠ none := by
  rcases reads_or_stops state cs with ⟨ts, last, hreads⟩ | hstop
  · rw [hreads.run_self] at h
    rw [hreads.run]
    cases last with
    | literal enclosure reversed =>
        rw [run_unterminated (hds enclosure)]
        nofun
    | _ => exact absurd rfl h
  · obtain ⟨ts, e, hrun⟩ := hstop place
    rw [hrun ds]
    nofun

end Lexer

open Lexer

/-- A text that has been read is read in the same way when a line feed and another text come after
it. -/
theorem lex_append_lineFeed {source : String} (h : (lex source).failure = none) (later : String) :
    lex (source ++ "\n" ++ later) =
      followed (lex source).ready ((lex later).moved (source.length + 1)) := by
  have htext : (source ++ "\n" ++ later).toList = source.toList ++ '\n' :: later.toList := by simp
  rw [lex] at h
  rw [lex, htext, run_append_lineFeed h, lex, lex, ← run_moved, String.length_toList]
  congr 2
  omega

end Bakehouse
