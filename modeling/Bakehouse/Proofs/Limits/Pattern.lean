import Bakehouse.Pattern.Parser

namespace Bakehouse

/-- The failures that no dish absorbs and that a text can bring about. -/
inductive Escape.IsLimit : Escape → Prop where
  | digits {n : Nat} (h : Numeral.maxDigits < n) : IsLimit (.tooManyDigits n)
  | flags : IsLimit .asciiAndUnicode

namespace Pattern

/-- Only a limit makes the scan end otherwise than with an error of the pattern. -/
def Limited {α : Type} (m : Scan α) : Prop :=
  ∀ s e, m s = .error (.escape e) → e.IsLimit

namespace Limited

variable {α β : Type}

theorem pure (a : α) : Limited (pure a : Scan α) := by
  intro s e h
  cases h

theorem error (e : Error) : Limited (throw (.error e) : Scan α) := by
  intro s e h
  cases h

theorem limit {e : Escape} (he : e.IsLimit) : Limited (throw (.escape e) : Scan α) := by
  intro s e h
  cases h
  exact he

theorem get : Limited get := by
  intro s e h
  cases h

theorem set (s : Scanner) : Limited (set s : Scan PUnit) := by
  intro s e h
  cases h

theorem modify (f : Scanner → Scanner) : Limited (modify f : Scan PUnit) := by
  intro s e h
  cases h

theorem bind {m : Scan α} {k : α → Scan β} (hm : Limited m) (hk : ∀ a, Limited (k a)) :
    Limited (m >>= k) := by
  intro s e h
  change Except.bind (m s) (fun p => k p.1 p.2) = _ at h
  cases hs : m s with
  | error stop =>
      rw [hs] at h
      cases h
      exact hm s e hs
  | ok p =>
      rw [hs] at h
      exact hk p.1 p.2 e h

theorem choose {c : Prop} [Decidable c] {yes no : Scan α} (hyes : Limited yes) (hno : Limited no) :
    Limited (if c then yes else no) := by
  split
  · exact hyes
  · exact hno

theorem fail (cause : Cause) (place : Nat) : Limited (fail cause place : Scan α) :=
  error _

theorem failBack (cause : Cause) (back : Nat) : Limited (failBack cause back : Scan α) :=
  get.bind fun _ => fail _ _

theorem peek : Limited peek :=
  get.bind fun _ => pure _

theorem checkDangling : Limited checkDangling := by
  refine get.bind fun s => ?_
  exact choose (fail _ _) (pure _)

theorem take : Limited take := by
  refine get.bind fun s => ?_
  split
  · exact pure _
  · exact (set _).bind fun _ => checkDangling.bind fun _ => pure _

theorem accept (c : Char) : Limited (accept c) := by
  refine peek.bind fun p => ?_
  exact choose (take.bind fun _ => pure _) (pure _)

/-- What is read after a character depends on whether it is there. -/
theorem ifAccept (c : Char) {yes no : Scan α} (hyes : Limited yes) (hno : Limited no) :
    Limited (do if ← Pattern.accept c then yes else no) := by
  refine (accept c).bind fun b => ?_
  exact choose hyes hno

/-- So does what is read after the next piece. -/
theorem takeThen {none : Scan α} {some : Piece → Scan α} (hnone : Limited none)
    (hsome : ∀ p, Limited (some p)) :
    Limited (do
      match ← Pattern.take with
      | .none => none
      | .some p => some p) := by
  refine take.bind fun p? => ?_
  cases p? with
  | none => exact hnone
  | some p => exact hsome p

theorem takeClass (holds : Char → Bool) (limit : Nat) : Limited (takeClass holds limit) := by
  induction limit with
  | zero => exact pure _
  | succ limit ih =>
      refine peek.bind fun p => ?_
      split
      · exact choose (take.bind fun _ => ih.bind fun _ => pure _) (pure _)
      · exact pure _

theorem takeName (terminator : Char) (what : String) (fuel : Nat) (name : String) :
    Limited (takeName terminator what fuel name) := by
  induction fuel generalizing name with
  | zero => exact error _
  | succ fuel ih =>
      refine takeThen ?_ fun p => ?_
      · exact choose (failBack _ _) (failBack _ _)
      · split
        · exact choose (failBack _ _) (pure _)
        · exact ih _

theorem nameUntil (terminator : Char) (what : String) : Limited (nameUntil terminator what) :=
  get.bind fun _ => takeName _ _ _ _

theorem groupName (terminator : Char) : Limited (groupName terminator) := by
  refine (nameUntil _ _).bind fun name => ?_
  exact choose (pure _) (failBack _ _)

theorem isClosed (group : Nat) : Limited (isClosed group) :=
  get.bind fun _ => pure _

theorem checkBehind (group : Nat) : Limited (checkBehind group) := by
  refine get.bind fun s => ?_
  split
  · exact pure _
  · refine (isClosed group).bind fun closed => ?_
    exact choose (failBack _ _) (choose (failBack _ _) (pure _))

theorem openGroup (name : Option String) : Limited (openGroup name) := by
  refine get.bind fun s => ?_
  cases name with
  | none => exact (set _).bind fun _ => pure _
  | some n =>
      simp only
      split
      · exact failBack _ _
      · exact (set _).bind fun _ => pure _

theorem closeGroup (group : Nat) (body : Node) : Limited (closeGroup group body) :=
  modify _

theorem hexEscape (c : Char) (count : Nat) : Limited (hexEscape c count) := by
  refine (takeClass _ _).bind fun ds => ?_
  exact choose (failBack _ _) (choose (failBack _ _) (pure _))

theorem namedEscape : Limited namedEscape := by
  refine ifAccept _ ?_ (failBack _ _)
  refine (nameUntil _ _).bind fun name => get.bind fun s => ?_
  cases s.characters.lookup name with
  | some c => exact pure c.toNat
  | none => exact failBack _ _

theorem commonEscape {c : Char} {code : Scan Nat} (h : commonEscape? c = some code) :
    Limited code := by
  unfold commonEscape? at h
  split at h
  · cases h
    exact hexEscape _ _
  split at h
  · cases h
    exact hexEscape _ _
  split at h
  · cases h
    exact hexEscape _ _
  split at h
  · cases h
    exact namedEscape
  · cases h

theorem octalCode (ds : List Char) : Limited (octalCode ds) := by
  unfold Pattern.octalCode
  exact choose (failBack _ _) (pure _)

theorem plainEscape (c : Char) : Limited (plainEscape c) := by
  unfold Pattern.plainEscape
  exact choose (failBack _ _) (pure _)

theorem setEscape (c : Char) : Limited (setEscape c) := by
  unfold Pattern.setEscape
  split
  · exact pure _
  · exact pure _
  · rename_i hcode
    exact (commonEscape hcode).bind fun _ => pure _
  · split
    · exact (takeClass _ _).bind fun _ => (octalCode _).bind fun _ => pure _
    · exact (plainEscape c).bind fun _ => pure _

theorem groupReference (ds : List Char) (mode : Mode) : Limited (groupReference ds mode) := by
  refine get.bind fun s => ?_
  split
  · refine (isClosed _).bind fun closed => ?_
    exact choose (failBack _ _) ((checkBehind _).bind fun _ => pure _)
  · exact failBack _ _

theorem digitEscape (c : Char) (mode : Mode) : Limited (digitEscape c mode) := by
  refine (takeClass _ _).bind fun ds => ?_
  split
  · exact groupReference _ _
  · split
    · refine (takeClass _ _).bind fun es => ?_
      split
      · exact groupReference _ _
      · exact (octalCode _).bind fun _ => pure _
    · exact groupReference _ _

theorem escape (c : Char) (mode : Mode) : Limited (escape c mode) := by
  unfold Pattern.escape
  split
  · exact pure _
  · exact pure _
  · exact pure _
  · rename_i hcode
    exact (commonEscape hcode).bind fun _ => pure _
  · split
    · exact (takeClass _ _).bind fun _ => pure _
    · exact choose (digitEscape c mode) ((plainEscape c).bind fun _ => pure _)

theorem setMember (p : Piece) : Limited (setMember p) := by
  cases p with
  | plain c => exact pure _
  | escape c => exact setEscape c

theorem setRange (this that : Piece) (first last : SetItem) :
    Limited (setRange this that first last) := by
  unfold Pattern.setRange
  split
  · exact choose (failBack _ _) (pure _)
  · exact failBack _ _

theorem setItems (opening fuel : Nat) (items : List SetItem) :
    Limited (setItems opening fuel items) := by
  induction fuel generalizing items with
  | zero => exact error _
  | succ fuel ih =>
      refine takeThen (fail _ _) fun this => ?_
      split
      · exact pure _
      · refine (setMember this).bind fun first => ifAccept _ ?_ (ih _)
        refine takeThen (fail _ _) fun that => ?_
        split
        · exact pure _
        · exact (setMember that).bind fun last => (setRange _ _ _ _).bind fun _ => ih _

theorem characterSet (mode : Mode) : Limited (characterSet mode) :=
  get.bind fun _ => (accept _).bind fun _ => (setItems _ _ _).bind fun _ => pure _

theorem decimal (cs : List Char) : Limited (decimal cs) := by
  unfold Pattern.decimal
  split
  · exact limit (.digits ‹_›)
  · exact pure _

theorem repeatCount (ds : List Char) : Limited (repeatCount ds) := by
  refine (decimal ds).bind fun n => ?_
  exact choose (error _) (pure _)

theorem bounds (s : Scanner) : Limited (bounds s) := by
  unfold Pattern.bounds
  split
  · exact pure _
  · refine (takeClass _ _).bind fun low => (accept _).bind fun b => ?_
    extract_lets next
    have hnext : ∀ high, Limited (next high) := by
      intro high
      refine ifAccept _ ?_ ((set _).bind fun _ => pure _)
      extract_lets finish
      have hfinish : ∀ least, Limited (finish least) := by
        intro least
        simp only [finish]
        split
        · exact pure _
        · refine (repeatCount _).bind fun most => ?_
          exact choose (fail _ _) (pure _)
      exact choose ((pure _).bind hfinish) ((repeatCount _).bind hfinish)
    exact choose ((takeClass _ _).bind hnext) ((pure _).bind hnext)

theorem quantifier (c : Char) : Limited (quantifier c) := by
  unfold Pattern.quantifier
  refine choose (pure _) (choose (pure _) (choose (pure _) ?_))
  exact get.bind fun s => bounds s

theorem greedMark : Limited greedMark :=
  ifAccept _ (pure _) (ifAccept _ (pure _) (pure _))

theorem repeated (place least : Nat) (most : Option Nat) (items : List Node) :
    Limited (repeated place least most items) := by
  unfold Pattern.repeated
  split
  · exact fail _ _
  · exact fail _ _
  · exact fail _ _
  · exact greedMark.bind fun _ => pure _

theorem flagLetter (missing : Cause) (p : Piece) : Limited (flagLetter missing p) := by
  cases p with
  | plain c =>
      simp only [Pattern.flagLetter]
      exact choose (pure _) (failBack _ _)
  | escape c => exact failBack _ _

theorem flagsOn (fuel : Nat) (on : List Char) (c : Char) : Limited (flagsOn fuel on c) := by
  induction fuel generalizing on c with
  | zero => exact error _
  | succ fuel ih =>
      unfold Pattern.flagsOn
      refine choose (failBack _ _) (choose (failBack _ _) ?_)
      refine takeThen (failBack _ _) fun p => ?_
      exact choose (pure _) ((flagLetter _ _).bind fun d => ih _ d)

theorem flagsOff (fuel : Nat) (off : List Char) (c : Char) : Limited (flagsOff fuel off c) := by
  induction fuel generalizing off c with
  | zero => exact error _
  | succ fuel ih =>
      unfold Pattern.flagsOff
      refine choose (failBack _ _) (takeThen (failBack _ _) fun p => ?_)
      exact choose (pure _) ((flagLetter _ _).bind fun d => ih _ d)

theorem groupFlags (c : Char) : Limited (groupFlags c) := by
  refine get.bind fun s => ?_
  extract_lets fuel next
  have hnext : ∀ flags, Limited (next flags) := by
    rintro ⟨on, stop⟩
    have hfinish : ∀ off : List Char, Limited (do
        if off.contains 't' then Pattern.failBack .globalFlagOff 1
        else if on.any off.contains then Pattern.failBack .flagOnAndOff 1
        else return some (on, off)) := by
      intro off
      exact choose (failBack _ _) (choose (failBack _ _) (pure _))
    refine choose ((modify _).bind fun _ => pure _) (choose (failBack _ _) (choose ?_ ?_))
    · exact takeThen ((failBack _ _).bind hfinish) fun p =>
        (flagLetter _ _).bind fun d => (flagsOff _ _ d).bind hfinish
    · exact (pure _).bind hfinish
  exact choose ((pure _).bind hnext) ((flagsOn _ _ _).bind hnext)

theorem conditionGroup : Limited conditionGroup := by
  refine (nameUntil _ _).bind fun name => choose (get.bind fun s => ?_) ?_
  · split
    · exact pure _
    · exact failBack _ _
  · split
    · exact failBack _ _
    · refine choose (failBack _ _) (choose (failBack _ _) (choose (failBack _ _) ?_))
      exact (modify _).bind fun _ => pure _

theorem skipComment (opening fuel : Nat) : Limited (skipComment opening fuel) := by
  induction fuel with
  | zero => exact error _
  | succ fuel ih =>
      refine takeThen (fail _ _) fun p => ?_
      exact choose (pure _) ih

theorem skipLine (fuel : Nat) : Limited (skipLine fuel) := by
  induction fuel with
  | zero => exact pure _
  | succ fuel ih =>
      refine takeThen (pure _) fun p => ?_
      exact choose (pure _) ih

theorem closing (opening : Nat) : Limited (closing opening) :=
  ifAccept _ (pure _) (fail _ _)

theorem namedReference (mode : Mode) : Limited (namedReference mode) := by
  refine (groupName _).bind fun name => get.bind fun s => ?_
  split
  · exact failBack _ _
  · refine (isClosed _).bind fun closed => ?_
    exact choose (failBack _ _) ((checkBehind _).bind fun _ => pure _)

theorem namedOpening (mode : Mode) : Limited (namedOpening mode) := by
  refine ifAccept _ ((groupName _).bind fun _ => pure _) ?_
  refine ifAccept _ ((namedReference mode).bind fun _ => pure _) ?_
  exact takeThen (failBack _ _) fun p => failBack _ _

theorem behindOpening : Limited behindOpening := by
  refine takeThen (failBack _ _) fun p => ?_
  exact choose (pure _) (choose (pure _) (failBack _ _))

theorem groupOpening (mode : Mode) : Limited (groupOpening mode) := by
  refine takeThen (failBack _ _) fun p => ?_
  split
  · exact namedOpening mode
  · exact pure _
  · exact pure _
  · exact pure _
  · exact pure _
  · exact behindOpening
  · exact pure _
  · exact pure _
  · exact choose (pure _) (failBack _ _)
  · exact failBack _ _

/-- The three functions that read nested patterns, by induction on their common fuel. -/
theorem nested (fuel : Nat) :
    (∀ inside first flags, Limited (alternation fuel inside first flags)) ∧
    (∀ first flags items, Limited (sequence fuel first flags items)) ∧
    ∀ start flags, Limited (group fuel start flags) := by
  induction fuel with
  | zero =>
      refine ⟨?_, ?_, ?_⟩
      · intro inside first flags
        rw [alternation]
        exact error _
      · intro first flags items
        rw [sequence]
        exact error _
      · intro start flags
        rw [group]
        exact error _
  | succ fuel ih =>
      obtain ⟨halternation, hsequence, hgroup⟩ := ih
      refine ⟨?_, ?_, ?_⟩
      · intro inside first flags
        rw [alternation]
        refine (hsequence _ _ _).bind fun branch => ifAccept _ ?_ (pure _)
        exact get.bind fun s => (halternation _ _ _).bind fun _ => pure _
      · intro first flags items
        rw [sequence]
        refine peek.bind fun p => ?_
        split
        · exact pure _
        · exact take.bind fun _ => (escape _ _).bind fun _ => hsequence _ _ _
        refine choose (pure _) (take.bind fun _ => ?_)
        refine choose (hsequence _ _ _) ?_
        refine choose (get.bind fun _ => (skipLine _).bind fun _ => hsequence _ _ _) ?_
        refine choose ((characterSet _).bind fun _ => hsequence _ _ _) ?_
        refine choose (get.bind fun s => (quantifier _).bind fun bounds => ?_) ?_
        · split
          · exact hsequence _ _ _
          · exact (repeated _ _ _ _).bind fun _ => hsequence _ _ _
        refine choose (hsequence _ _ _) (choose (hsequence _ _ _) (choose (hsequence _ _ _) ?_))
        refine choose (get.bind fun s => (hgroup _ _).bind fun result => ?_) (hsequence _ _ _)
        cases result with
        | node n => exact hsequence _ _ _
        | nothing => exact hsequence _ _ _
        | flags => exact choose (fail _ _) (get.bind fun _ => hsequence _ _ _)
      · intro start flags
        rw [group]
        have hcapture : ∀ name, Limited (do
            let index ← Pattern.openGroup name
            let body ← alternation fuel true false flags
            Pattern.closing start
            Pattern.closeGroup index body
            return GroupResult.node (.capture index body)) := fun name =>
          (openGroup name).bind fun index => (halternation _ _ _).bind fun body =>
            (closing start).bind fun _ => (closeGroup index body).bind fun _ => pure _
        refine ifAccept _ ((groupOpening _).bind fun opening => ?_) (hcapture none)
        cases opening with
        | named name => exact hcapture (some name)
        | reference n => exact pure _
        | plain => exact (halternation _ _ _).bind fun _ => (closing start).bind fun _ => pure _
        | comment => exact get.bind fun s => (skipComment _ _).bind fun _ => pure _
        | look behind negated =>
            cases behind with
            | false => exact (halternation _ _ _).bind fun _ => (closing start).bind fun _ => pure _
            | true =>
                refine get.bind fun s => (modify _).bind fun _ => (halternation _ _ _).bind fun _ => ?_
                exact (modify _).bind fun _ => (closing start).bind fun _ => get.bind fun _ => pure _
        | condition =>
            refine conditionGroup.bind fun index => (checkBehind index).bind fun _ => ?_
            refine (hsequence _ _ _).bind fun yes => (accept _).bind fun bar => ?_
            extract_lets next
            have hnext : ∀ no, Limited (next no) := by
              intro no
              refine peek.bind fun p => ?_
              exact choose (failBack _ _) ((closing start).bind fun _ => pure _)
            exact choose ((hsequence _ _ _).bind hnext) ((pure _).bind hnext)
        | atomic => exact (halternation _ _ _).bind fun _ => (closing start).bind fun _ => pure _
        | flags c =>
            refine (groupFlags c).bind fun flags => ?_
            split
            · exact pure _
            · exact (halternation _ _ _).bind fun _ => (closing start).bind fun _ => pure _

/-- The second limit shows when the whole pattern has been read. -/
theorem pattern (fuel : Nat) : Limited (pattern fuel) := by
  refine checkDangling.bind fun _ => ((nested fuel).1 _ _ _).bind fun root => get.bind fun s => ?_
  refine choose (limit .flags) (choose (fail _ _) ?_)
  split
  · exact fail _ _
  · split
    · exact error _
    · exact pure _

end Limited

theorem isLimit_of_compile {characters : CharacterNames} {text : String} {e : Escape}
    (h : compile characters text = .error (.escape e)) : e.IsLimit := by
  unfold compile at h
  change Except.map Prod.fst (pattern _ _) = _ at h
  revert h
  generalize hs : pattern _ _ = r
  cases r with
  | error stop =>
      intro h
      cases h
      exact Limited.pattern _ _ _ hs
  | ok p =>
      intro h
      cases h

end Pattern

end Bakehouse
