import Bakehouse.Console.ReadLoop
import Bakehouse.Proofs.Balance
import Bakehouse.Proofs.Concatenation
import Bakehouse.Proofs.Output

namespace Bakehouse

theorem lines_ne_nil {cs : List Char} (h : cs ≠ []) : lines cs ≠ [] := by
  obtain ⟨c, cs, rfl⟩ := List.exists_cons_of_ne_nil h
  simp only [lines]
  split
  · simp
  · split <;> simp

theorem flatten_lines (cs : List Char) : (lines cs).flatten = cs := by
  induction cs with
  | nil => rfl
  | cons c cs ih =>
      simp only [lines]
      split
      · rw [List.flatten_cons, ih, List.singleton_append]
      · split
        · rename_i hnil
          rw [hnil] at ih
          rw [← ih]
          rfl
        · rename_i line rest hcons
          rw [hcons] at ih
          rw [← ih]
          rfl

theorem ne_nil_of_mem_lines {cs line : List Char} (h : line ∈ lines cs) : line ≠ [] := by
  induction cs generalizing line with
  | nil => cases h
  | cons c cs ih =>
      simp only [lines] at h
      split at h
      · rcases List.mem_cons.mp h with rfl | h
        · simp
        · exact ih h
      · split at h
        · cases List.mem_singleton.mp h
          simp
        · rename_i hcons
          rcases List.mem_cons.mp h with rfl | h
          · simp
          · exact ih (hcons ▸ List.mem_cons_of_mem _ h)

theorem lines_append (cs ds : List Char) :
    lines (cs ++ '\n' :: ds) = lines (cs ++ ['\n']) ++ lines ds := by
  induction cs with
  | nil => rfl
  | cons c cs ih =>
      simp only [List.cons_append, lines, ih]
      split
      · rfl
      · have hne : lines (cs ++ ['\n']) ≠ [] := lines_ne_nil (by simp)
        obtain ⟨line, rest, hlines⟩ := List.exists_cons_of_ne_nil hne
        rw [hlines]
        rfl

theorem lines_line {cs : List Char} (h : '\n' ∉ cs) : lines (cs ++ ['\n']) = [cs ++ ['\n']] := by
  induction cs with
  | nil => rfl
  | cons c cs ih =>
      simp only [List.mem_cons, not_or] at h
      simp [lines, Ne.symm h.1, ih h.2]

/-- The last line starts somewhere in `before`, if no line ends in `after`. -/
theorem exists_lines {after : List Char} (h : '\n' ∉ after) (before : List Char) :
    ∃ ls l, lines (before ++ (after ++ ['\n'])) = ls ++ [l] ∧ ls.flatten <+: before := by
  induction before with
  | nil =>
      exact ⟨[], after ++ ['\n'], lines_line h, List.nil_prefix⟩
  | cons c before ih =>
      obtain ⟨ls, l, hlines, hprefix⟩ := ih
      simp only [List.cons_append, lines, hlines]
      split
      · refine ⟨[c] :: ls, l, rfl, ?_⟩
        exact (List.prefix_cons_inj c).mpr hprefix
      · cases ls with
        | nil => exact ⟨[], c :: l, rfl, List.nil_prefix⟩
        | cons line ls =>
            refine ⟨(c :: line) :: ls, l, rfl, ?_⟩
            exact (List.prefix_cons_inj c).mpr hprefix

/-- One form as it is typed: it opens with the first character of the block and closes on the last
line. -/
structure IsBlock (b : List Char) : Prop where
  opens : b.head? = some '('
  reads : ∃ f, read (String.ofList b) = .ok f
  /-- The last token is a parenthesis after which no line ends before the block does. -/
  closes : ∃ before after, b = before ++ ')' :: (after ++ ['\n']) ∧ '\n' ∉ after ∧
    (lex (String.ofList before)).failure = none ∧
    (lex (String.ofList b)).ready =
      (lex (String.ofList before)).ready ++ [⟨.rparen, [')']⟩]

/-- Between its first and its last parenthesis a form has an open one. -/
theorem depthAfter_pos {ts us : List Token} {f : Form}
    (h : Derives (⟨.lparen, ['(']⟩ :: (ts ++ (us ++ [⟨.rparen, [')']⟩]))) f) :
    ∃ k, depthAfter 0 (⟨.lparen, ['(']⟩ :: ts) = some (k + 1) := by
  obtain ⟨ps, fs, hps, _, hfs⟩ := h.of_lparen
  rw [← List.append_assoc] at hps
  obtain rfl := List.append_cancel_right hps
  have hzero := hfs.depthAfter
  rw [depthAfter_append, Option.bind_eq_some_iff] at hzero
  obtain ⟨k, hk, _⟩ := hzero
  exact ⟨k, depthAfter_add hk 1⟩

theorem Lexer.Reads.opening {cs : List Char} {ts : List Token} {last : State}
    (h : Reads .gap ('(' :: cs) ts last) : ∃ us, ts = ⟨.lparen, ['(']⟩ :: us := by
  cases h with
  | cons h hs =>
      cases h 0
      exact ⟨_, rfl⟩

/-- Wherever a form is cut before its last parenthesis, the balance shows that it is not complete. -/
theorem parenDepth_pos {before : List Char} (hlex : (lex (String.ofList before)).failure = none)
    {f : Form}
    (hf : Derives ((lex (String.ofList before)).ready ++ [⟨.rparen, [')']⟩]) f) {cs ds : List Char}
    (hbefore : before = '(' :: cs ++ ds) : 0 < parenDepth ('(' :: cs) := by
  subst hbefore
  rw [lex_ofList] at hlex hf
  obtain ⟨ts, last, hreads, hlast⟩ := Lexer.exists_reads hlex
  rw [hreads.run_self] at hf
  obtain ⟨ts, us, mid, rfl, hleft, hright⟩ := hreads.split
  obtain ⟨ts, rfl⟩ := hleft.opening
  have hplain := hf.plain
  simp only [Lexer.followed, List.forall_mem_append] at hplain
  have hmid := hright.plain hplain.1.1.2 (Lexer.plain_of_finish hlast)
  have hdepth : parenDepth ('(' :: cs ++ []) = Lexer.balanceAfter _ mid 0 [] :=
    hleft.depthFrom hplain.1.1.1 hmid 0 []
  have hwhole : Derives
      (⟨.lparen, ['(']⟩ :: (ts ++ (us ++ (Lexer.finish last).ready ++ [⟨.rparen, [')']⟩]))) f := by
    simpa [Lexer.followed] using hf
  obtain ⟨k, hk⟩ := depthAfter_pos hwhole
  rw [List.append_nil, Lexer.balanceAfter, hk, Option.elim_some, Balance.depthFrom] at hdepth
  omega

namespace IsBlock

variable {b : List Char}

theorem depth_eq (h : IsBlock b) : parenDepth b = 0 := by
  obtain ⟨f, hread⟩ := h.reads
  have hdepth := parenDepth_of_readAll (by rw [read_iff_readAll.mp hread])
  rwa [String.toList_ofList] at hdepth

theorem exists_body (h : IsBlock b) : ∃ body, b = body ++ ['\n'] := by
  obtain ⟨before, after, hb, _⟩ := h.closes
  exact ⟨before ++ ')' :: after, by simp [hb]⟩

theorem strip_ne_nil (h : IsBlock b) : Text.strip b ≠ [] := by
  have hmem : '(' ∈ b := List.mem_of_mem_head? h.opens
  rcases Text.mem_strip_or hmem with hblank | hstrip
  · exact absurd hblank (by decide)
  · exact List.ne_nil_of_mem hstrip

/-- A block is a row of lines after which the form is not complete and one line after which it is. -/
theorem exists_lines (h : IsBlock b) :
    ∃ ls l, lines b = ls ++ [l] ∧
      ∀ p, p <+: ls.flatten → p ≠ [] → 0 < parenDepth p := by
  obtain ⟨f, hread⟩ := h.reads
  obtain ⟨before, after, hb, hafter, hbefore, htokens⟩ := h.closes
  have hf := (read_eq_ok_iff.mp hread).2
  rw [htokens] at hf
  have hnot : '\n' ∉ ')' :: after := by simp [hafter]
  obtain ⟨ls, l, hlines, hprefix⟩ := Bakehouse.exists_lines hnot before
  refine ⟨ls, l, hb ▸ hlines, fun p hp hne => ?_⟩
  obtain ⟨ds, hds⟩ := hp.trans hprefix
  obtain ⟨c, cs, rfl⟩ := List.exists_cons_of_ne_nil hne
  have hopens := h.opens
  rw [hb, ← hds] at hopens
  cases hopens
  exact parenDepth_pos hbefore hf hds.symm

end IsBlock

namespace ReadLoop

variable {fuel : Nat} {prompt : String}

theorem feed_of_open {pending line : List Char} (h : 0 < parenDepth (pending ++ line)) :
    feed fuel prompt pending line = pure (pending ++ line) := by
  simp only [feed, if_pos h]

theorem feed_of_complete {pending line b : List Char} (hb : pending ++ line = b)
    (hdepth : parenDepth b = 0) (hstrip : Text.strip b ≠ []) :
    feed fuel prompt pending line =
      (do
        submit fuel b
        write prompt
        return []) := by
  subst hb
  simp [feed, hdepth, hstrip]

theorem foldlM_feed {pending : List Char} {ls : List (List Char)} (hls : ∀ l ∈ ls, l ≠ [])
    (h : ∀ p, p <+: ls.flatten → p ≠ [] → 0 < parenDepth (pending ++ p)) :
    ls.foldlM (feed fuel prompt) pending = pure (pending ++ ls.flatten) := by
  induction ls generalizing pending with
  | nil => simp
  | cons l ls ih =>
      simp only [List.forall_mem_cons] at hls
      rw [List.flatten_cons] at h
      rw [List.foldlM_cons, feed_of_open (h l (List.prefix_append _ _) hls.1), pure_bind, ih hls.2]
      · rw [List.flatten_cons, List.append_assoc]
      · intro p hp hne
        rw [List.append_assoc]
        exact h (l ++ p) ((List.prefix_append_right_inj l).mpr hp) (by simp [hne])

theorem foldlM_block {b : List Char} (h : IsBlock b) :
    (lines b).foldlM (feed fuel prompt) [] =
      (do
        submit fuel b
        write prompt
        return []) := by
  obtain ⟨ls, l, hlines, hopen⟩ := h.exists_lines
  have hls : ∀ line ∈ ls, line ≠ [] := fun line hline =>
    ne_nil_of_mem_lines (hlines ▸ List.mem_append_left [l] hline)
  have hflatten : ls.flatten ++ l = b := by
    rw [← flatten_lines b, hlines]
    simp
  have hwait : ls.foldlM (feed fuel prompt) [] = pure ls.flatten := foldlM_feed hls hopen
  rw [hlines, List.foldlM_append, hwait, pure_bind, List.foldlM_cons,
    feed_of_complete hflatten h.depth_eq h.strip_ne_nil]
  simp

theorem foldlM_blocks {blocks : List (List Char)} (h : ∀ b ∈ blocks, IsBlock b) :
    (lines blocks.flatten).foldlM (feed fuel prompt) [] =
      (do
        blocks.forM fun b => do
          submit fuel b
          write prompt
        return []) := by
  induction blocks with
  | nil => rfl
  | cons b blocks ih =>
      simp only [List.forall_mem_cons] at h
      obtain ⟨body, hb⟩ := h.1.exists_body
      have hlines : lines (b ++ blocks.flatten) = lines b ++ lines blocks.flatten := by
        rw [hb, List.append_assoc, List.singleton_append]
        exact lines_append body blocks.flatten
      rw [List.flatten_cons, hlines, List.foldlM_append, foldlM_block h.1]
      simp [ih h.2, List.forM]

theorem run_blocks {blocks : List (List Char)} (h : ∀ b ∈ blocks, IsBlock b) :
    run fuel prompt blocks.flatten =
      (do
        write prompt
        blocks.forM fun b => do
          submit fuel b
          write prompt) := by
  rw [run, foldlM_blocks h]
  simp

/-- Evaluating the blocks one after the other leads from the first store to the second without an
error. An answer is what a block prints, and then its value. -/
inductive Answers (fuel : Nat) : Store → List (List Char) → List String → Store → Prop
  | nil (s : Store) : Answers fuel s [] [] s
  | cons {s t u : Store} {b : List Char} {blocks : List (List Char)} {v : Value} {printed : String}
      {answers : List String} (h : evalOne fuel (String.ofList b) s = (.ok v, t))
      (hprinted : t.output = s.output ++ printed) (hs : Answers fuel t blocks answers u) :
      Answers fuel s (b :: blocks) ((printed ++ t.display v) :: answers) u

theorem exists_answers {blocks : List (List Char)} {s u : Store} {vs : List Value}
    (h : (blocks.mapM fun b => evalOne fuel (String.ofList b)) s = (.ok vs, u)) :
    ∃ answers, Answers fuel s blocks answers u := by
  induction blocks generalizing s vs with
  | nil =>
      cases h
      exact ⟨[], .nil _⟩
  | cons b blocks ih =>
      rw [List.mapM_cons, Run.bind_apply] at h
      rcases heval : evalOne fuel (String.ofList b) s with ⟨e | v, t⟩
      · rw [heval] at h
        cases h
      · rw [heval] at h
        simp only [Run.bind_apply] at h
        rcases hrest : (blocks.mapM fun b => evalOne fuel (String.ofList b)) t with ⟨e | ws, t'⟩
        · rw [hrest] at h
          cases h
        · rw [hrest] at h
          cases h
          obtain ⟨answers, hanswers⟩ := ih hrest
          obtain ⟨printed, hprinted, _⟩ := exists_output heval ""
          exact ⟨_, .cons heval hprinted hanswers⟩

theorem tryCatch_apply {m : Run Unit} {k : Halt → Run Unit} {s t : Store}
    (h : m s = (.ok (), t)) : (tryCatch m k : Run Unit) s = (.ok (), t) := by
  simp only [tryCatch, tryCatchThe, MonadExceptOf.tryCatch, ExceptT.tryCatch, ExceptT.mk]
  change StateT.bind m _ s = _
  simp only [StateT.bind, h]
  rfl

theorem submit_apply {b : List Char} {s t : Store} {v : Value}
    (h : evalOne fuel (String.ofList b) s = (.ok v, t)) :
    submit fuel b s = (.ok (), { t with output := t.output ++ (t.display v ++ "\n") }) := by
  refine tryCatch_apply ?_
  rw [Run.bind_apply_ok h]
  rfl

/-- What the loop writes after the first prompt. -/
def transcript (prompt : String) (answers : List String) : String :=
  String.join (answers.map fun answer => answer ++ "\n" ++ prompt)

theorem forM_answers {blocks : List (List Char)} {answers : List String} {s u : Store}
    (h : Answers fuel s blocks answers u) (before : String) :
    (blocks.forM fun b => do
        submit fuel b
        write prompt) { s with output := before } =
      (.ok (), { u with output := before ++ transcript prompt answers }) := by
  induction h generalizing before with
  | nil s =>
      rw [transcript, List.map_nil, String.join_nil, String.append_empty]
      rfl
  | @cons s t u b blocks v printed answers h hprinted _ ih =>
      have hsubmit := submit_apply (evalOne_output h hprinted before)
      change ((do
          submit fuel b
          write prompt) >>= fun _ => blocks.forM fun b => do
            submit fuel b
            write prompt) _ = _
      rw [bind_assoc, Run.bind_apply_ok hsubmit]
      refine (ih (before ++ printed ++ (t.display v ++ "\n") ++ prompt)).trans ?_
      simp only [transcript, List.map_cons, String.join_cons, String.append_assoc]

theorem failure_of_lineFeed {source : String} (h : (lex (source ++ "\n")).failure = none) :
    (lex source).failure = none := by
  refine Decidable.of_not_not fun hfailure => ?_
  rw [lex, String.toList_append] at h
  exact Lexer.failure_append hfailure (fun e => by cases e <;> decide) h

theorem readAll_of_lineFeed {source : String} {fs : List Form}
    (h : readAll (source ++ "\n") = (fs, none)) : readAll source = (fs, none) := by
  obtain ⟨hlex, hforms⟩ := readAll_eq_iff.mp h
  have hsource := failure_of_lineFeed hlex
  have hready : (lex (source ++ "\n")).ready = (lex source).ready := by
    have happend := lex_append_lineFeed hsource ""
    rw [String.append_empty] at happend
    rw [happend]
    exact List.append_nil _
  rw [hready] at hforms
  exact readAll_eq_iff.mpr ⟨hsource, hforms⟩

theorem readAll_blocks {blocks : List (List Char)} (h : ∀ b ∈ blocks, IsBlock b) :
    ∃ fs, readAll (String.ofList blocks.flatten) = (fs, none) ∧
      List.Forall₂ (fun b f => read (String.ofList b) = .ok f) blocks fs := by
  induction blocks with
  | nil => exact ⟨[], rfl, .nil⟩
  | cons b blocks ih =>
      simp only [List.forall_mem_cons] at h
      obtain ⟨fs, hfs, hreads⟩ := ih h.2
      obtain ⟨f, hf⟩ := h.1.reads
      obtain ⟨body, hb⟩ := h.1.exists_body
      have hsource : String.ofList b = String.ofList body ++ "\n" := by
        rw [hb, ← String.toList_inj]
        simp
      have hone : readAll (String.ofList body) = ([f], none) :=
        readAll_of_lineFeed (hsource ▸ read_iff_readAll.mp hf)
      refine ⟨f :: fs, ?_, .cons hf hreads⟩
      rw [List.flatten_cons, String.ofList_append, hsource, readAll_append_lineFeed (by rw [hone]),
        hone, hfs]
      rfl

theorem runForms_answers {blocks : List (List Char)} {answers : List String} {s u : Store}
    (h : Answers fuel s blocks answers u) {fs : List Form}
    (hfs : List.Forall₂ (fun b f => read (String.ofList b) = .ok f) blocks fs)
    (last : Option Value) :
    ∃ v, runForms (fun v => evaluate fuel v baseFrame) last fs none s = (.ok v, u) := by
  induction h generalizing fs last with
  | nil s =>
      cases hfs
      exact ⟨last, rfl⟩
  | cons h _ _ ih =>
      cases hfs with
      | cons hf hfs =>
          rw [evalOne, hf] at h
          simp only [runForms]
          rw [← bind_assoc, Run.bind_apply_ok h]
          exact ih hfs _

end ReadLoop

open ReadLoop

/-- The read loop submits the forms that are typed, each of them once, whole and in order. If none of
them ends in an error, the loop writes what each one prints and its value, with a prompt before the
first and after each, and leaves the rest of the store as running the whole text does. -/
theorem read_loop_submits_forms {blocks : List (List Char)} (h : ∀ b ∈ blocks, IsBlock b)
    (fuel : Nat) (prompt : String) :
    run fuel prompt blocks.flatten =
        (do
          write prompt
          blocks.forM fun b => do
            submit fuel b
            write prompt) ∧
      ∀ (s u : Store) (vs : List Value),
        (blocks.mapM fun b => evalOne fuel (String.ofList b)) s = (.ok vs, u) →
          ∃ answers, Answers fuel s blocks answers u ∧
            run fuel prompt blocks.flatten s =
              (.ok (), { u with output := s.output ++ prompt ++ transcript prompt answers }) ∧
            ∃ v, evalText fuel (String.ofList blocks.flatten) s = (.ok v, u) := by
  refine ⟨run_blocks h, fun s u vs hvs => ?_⟩
  obtain ⟨answers, hanswers⟩ := exists_answers hvs
  obtain ⟨fs, hfs, hreads⟩ := readAll_blocks h
  refine ⟨answers, hanswers, ?_, ?_⟩
  · rw [run_blocks h]
    exact forM_answers hanswers (s.output ++ prompt)
  · rw [evalText_eq, hfs]
    exact runForms_answers hanswers hreads none

/-- Two forms on two lines each: one with a comment at the end of the first line, and one with a line
feed in a string. -/
theorem read_loop_submits_forms_two :
    let blocks := ["(quote ; (\n \"a\")\n".toList, "(quote \"(\n\") ; )\n".toList]
    (∀ b ∈ blocks, IsBlock b) ∧
      run 2 "> " blocks.flatten Store.empty =
        (.ok (), { Store.empty with output := "> a\n> (\n\n> " }) := by
  intro blocks
  have hquote : Derives [⟨.atom, "quote".toList⟩] (.symbol .quote) :=
    .atom (Form.ofAtom_eq_symbol_iff.mpr (by decide +kernel))
  have hread (b cs : List Char)
      (hlex : lex (String.ofList b) = ⟨⟨.lparen, ['(']⟩ :: (([⟨.atom, "quote".toList⟩] ++
        ([⟨.literal .text, '"' :: (cs ++ ['"'])⟩] ++ [])) ++ [⟨.rparen, [')']⟩]), none⟩) :
      read (String.ofList b) = .ok (.list [.symbol .quote, .text (String.ofList cs)]) := by
    rw [read_eq_ok_iff, hlex]
    exact ⟨rfl, .list (.cons hquote (.cons (.text cs) .nil))⟩
  have hfirst := hread "(quote ; (\n \"a\")\n".toList ['a'] (by decide +kernel)
  have hsecond := hread "(quote \"(\n\") ; )\n".toList ['(', '\n'] (by decide +kernel)
  have hblocks : ∀ b ∈ blocks, IsBlock b := by
    simp only [blocks, List.forall_mem_cons]
    refine ⟨⟨rfl, ⟨_, hfirst⟩, "(quote ; (\n \"a\"".toList, [], by decide +kernel⟩,
      ⟨rfl, ⟨_, hsecond⟩, "(quote \"(\n\"".toList, " ; )".toList, by decide +kernel⟩, by simp⟩
  have hone (b cs : List Char)
      (h : read (String.ofList b) = .ok (.list [.symbol .quote, .text (String.ofList cs)])) :
      evalOne 2 (String.ofList b) Store.empty = (.ok (.text (String.ofList cs)), Store.empty) := by
    simp only [evalOne, h]
    rfl
  have hvs : (blocks.mapM fun b => evalOne 2 (String.ofList b)) Store.empty =
      (.ok [.text "a", .text "(\n"], Store.empty) := by
    simp only [blocks, List.mapM_cons, List.mapM_nil]
    rw [Run.bind_apply_ok (hone _ _ hfirst), bind_assoc, Run.bind_apply_ok (hone _ _ hsecond)]
    rfl
  obtain ⟨answers, hanswers, hrun, _⟩ := (read_loop_submits_forms hblocks 2 "> ").2 _ _ _ hvs
  refine ⟨hblocks, hrun.trans ?_⟩
  have htranscript : answers = ["a", "(\n"] := by
    simp only [blocks] at hanswers
    rcases hanswers with _ | ⟨h, hprinted, _ | ⟨h', hprinted', ⟨⟩⟩⟩
    cases h.symm.trans (hone _ _ hfirst)
    cases h'.symm.trans (hone _ _ hsecond)
    simp only [Store.empty, String.empty_append] at hprinted hprinted'
    rw [← hprinted, ← hprinted']
    rfl
  rw [htranscript]
  rfl

end Bakehouse
