import Bakehouse.Proofs.Limits.Evaluator
import Bakehouse.Proofs.ReadLoop

namespace Bakehouse

namespace ReadLoop

/-- What the loop answers to a submission, and the store it goes on with: the display of a value, or
the message of an error of the language. -/
inductive Answer (fuel : Nat) (source : List Char) (s : Store) : String → Store → Prop where
  | value {v : Value} {t : Store} (h : evalOne fuel (String.ofList source) s = (.ok v, t)) :
      Answer fuel source s (t.display v) t
  | error {e : Error} {t : Store}
      (h : evalOne fuel (String.ofList source) s = (.error (.error e), t))
      (hknown : e.isRecoverable = true) : Answer fuel source s ("error: " ++ e.message) t

/-- A submission without an answer. -/
def Unanswered (fuel : Nat) (source : List Char) (s : Store) (halt : Halt) (t : Store) : Prop :=
  evalOne fuel (String.ofList source) s = (.error halt, t) ∧
    (halt = .outOfFuel ∨ ∃ e : Error, halt = .error e ∧ e.IsLimit)

/-- The loop on the lines that are left, while some input is pending. It ends with the lines, or
halted by a submission that has no answer. -/
inductive Session (fuel : Nat) (prompt : String) :
    List Char → List (List Char) → Store → Option Halt → Store → Prop where
  | finish (pending : List Char) (s : Store) : Session fuel prompt pending [] s none s
  | wait {pending line : List Char} {ls : List (List Char)} {s u : Store} {halt : Option Halt}
      (hopen : 0 < parenDepth (pending ++ line))
      (h : Session fuel prompt (pending ++ line) ls s halt u) :
      Session fuel prompt pending (line :: ls) s halt u
  | blank {pending line : List Char} {ls : List (List Char)} {s u : Store} {halt : Option Halt}
      (hclosed : parenDepth (pending ++ line) ≤ 0) (hblank : Text.strip (pending ++ line) = [])
      (h : Session fuel prompt [] ls { s with output := s.output ++ prompt } halt u) :
      Session fuel prompt pending (line :: ls) s halt u
  | answer {pending line : List Char} {ls : List (List Char)} {s t u : Store} {halt : Option Halt}
      {answer : String} (hclosed : parenDepth (pending ++ line) ≤ 0)
      (hsource : Text.strip (pending ++ line) ≠ [])
      (hanswer : Answer fuel (pending ++ line) s answer t)
      (h : Session fuel prompt [] ls
        { t with output := t.output ++ (answer ++ "\n") ++ prompt } halt u) :
      Session fuel prompt pending (line :: ls) s halt u
  | halt {pending line : List Char} {ls : List (List Char)} {s t : Store} {halt : Halt}
      (hclosed : parenDepth (pending ++ line) ≤ 0) (hsource : Text.strip (pending ++ line) ≠ [])
      (hhalt : Unanswered fuel (pending ++ line) s halt t) :
      Session fuel prompt pending (line :: ls) s (some halt) t

variable {fuel : Nat} {prompt : String}

/-- Every submission has an answer or halts the loop. -/
theorem answer_or_unanswered (fuel : Nat) (source : List Char) (s : Store) :
    (∃ answer t, Answer fuel source s answer t) ∨ ∃ halt t, Unanswered fuel source s halt t := by
  rcases heval : evalOne fuel (String.ofList source) s with ⟨halt | v, t⟩
  · cases halt with
    | outOfFuel => exact .inr ⟨_, t, heval, .inl rfl⟩
    | error e =>
        have hforeseen := Limited.evalOne fuel (String.ofList source) s e (congrArg Prod.fst heval)
        rcases hforeseen with hknown | hlimit
        · exact .inl ⟨_, t, .error heval hknown⟩
        · exact .inr ⟨_, t, heval, .inr ⟨e, rfl, hlimit⟩⟩
  · exact .inl ⟨_, t, .value heval⟩

theorem tryCatch_apply_error {m : Run Unit} {k : Halt → Run Unit} {s t : Store} {halt : Halt}
    (h : m s = (.error halt, t)) : (tryCatch m k : Run Unit) s = k halt t := by
  simp only [tryCatch, tryCatchThe, MonadExceptOf.tryCatch, ExceptT.tryCatch, ExceptT.mk]
  change StateT.bind m _ s = _
  simp only [StateT.bind, h]
  rfl

theorem submit_of_answer {source : List Char} {s t : Store} {answer : String}
    (h : Answer fuel source s answer t) :
    submit fuel source s = (.ok (), { t with output := t.output ++ (answer ++ "\n") }) := by
  cases h with
  | value h => exact submit_apply h
  | error h hknown =>
      refine (tryCatch_apply_error (Run.bind_apply_error h)).trans ?_
      simp only [report, if_pos hknown]
      rfl

theorem submit_of_unanswered {source : List Char} {s t : Store} {halt : Halt}
    (h : Unanswered fuel source s halt t) : submit fuel source s = (.error halt, t) := by
  obtain ⟨heval, hhalt⟩ := h
  refine (tryCatch_apply_error (Run.bind_apply_error heval)).trans ?_
  rcases hhalt with rfl | ⟨e, rfl, hlimit⟩
  · rfl
  · simp only [report, hlimit.not_isRecoverable]
    rfl

theorem feed_of_blank {pending line : List Char} (hclosed : parenDepth (pending ++ line) ≤ 0)
    (hblank : Text.strip (pending ++ line) = []) (s : Store) :
    feed fuel prompt pending line s = (.ok [], { s with output := s.output ++ prompt }) := by
  simp only [feed, if_neg (Int.not_lt.mpr hclosed), hblank]
  rfl

theorem feed_of_source {pending line : List Char} (hclosed : parenDepth (pending ++ line) ≤ 0)
    (hsource : Text.strip (pending ++ line) ≠ []) :
    feed fuel prompt pending line =
      (do
        submit fuel (pending ++ line)
        write prompt
        return []) := by
  simp [feed, Int.not_lt.mpr hclosed, hsource]

/-- From any point of its input on, the loop goes through a session. -/
theorem exists_session (fuel : Nat) (prompt : String) (ls : List (List Char)) (pending : List Char)
    (s : Store) :
    ∃ halt u, Session fuel prompt pending ls s halt u ∧
      (ls.foldlM (feed fuel prompt) pending >>= fun _ => pure ()) s =
        (halt.elim (.ok ()) .error, u) := by
  induction ls generalizing pending s with
  | nil => exact ⟨none, s, .finish pending s, rfl⟩
  | cons line ls ih =>
      rw [List.foldlM_cons, bind_assoc]
      by_cases hopen : 0 < parenDepth (pending ++ line)
      · obtain ⟨halt, u, hsession, hrun⟩ := ih (pending ++ line) s
        refine ⟨halt, u, .wait hopen hsession, ?_⟩
        rw [feed_of_open hopen, pure_bind, hrun]
      have hclosed := Int.not_lt.mp hopen
      by_cases hblank : Text.strip (pending ++ line) = []
      · obtain ⟨halt, u, hsession, hrun⟩ := ih [] { s with output := s.output ++ prompt }
        refine ⟨halt, u, .blank hclosed hblank hsession, ?_⟩
        rw [Run.bind_apply_ok (feed_of_blank hclosed hblank s), hrun]
      rw [feed_of_source hclosed hblank, bind_assoc]
      rcases answer_or_unanswered fuel (pending ++ line) s with ⟨answer, t, h⟩ | ⟨halt, t, h⟩
      · obtain ⟨halt, u, hsession, hrun⟩ :=
          ih [] { t with output := t.output ++ (answer ++ "\n") ++ prompt }
        refine ⟨halt, u, .answer hclosed hblank h hsession, ?_⟩
        rw [Run.bind_apply_ok (submit_of_answer h)]
        exact hrun
      · exact ⟨some halt, t, .halt hclosed hblank h, Run.bind_apply_error (submit_of_unanswered h)⟩

end ReadLoop

open ReadLoop

/-- Whatever is typed, into whatever interpreter, the loop prompts, takes its input line by line,
answers every submission and prompts again. It ends with its input, unless an evaluation runs out of
fuel or comes to a limit. -/
theorem read_loop_survives (fuel : Nat) (prompt : String) (input : List Char) (s : Store) :
    ∃ halt u, Session fuel prompt [] (lines input) { s with output := s.output ++ prompt } halt u ∧
      run fuel prompt input s = (halt.elim (.ok ()) .error, u) :=
  exists_session fuel prompt (lines input) [] { s with output := s.output ++ prompt }

/-- Flags that exclude each other end the loop before the second line is read. -/
theorem read_loop_halts_at_flags :
    let input := "((regex-match \"(?a)(?u)\") (dish \"a\"))\n(+ 1 2)\n".toList
    (run 9 "codebake> " input (Store.initial [])).1 = .error (.error (.escape .asciiAndUnicode)) ∧
      (run 9 "codebake> " input (Store.initial [])).2.output = "codebake> " := by
  decide +kernel

end Bakehouse
