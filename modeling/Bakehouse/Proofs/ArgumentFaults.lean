import Bakehouse.Proofs.Arguments
import Bakehouse.Proofs.Cells
import Bakehouse.Proofs.Invariant
import Bakehouse.Proofs.WellFormed

/-!
Operations of the catalog find their arguments. Each asks for what it declares, and a call has made
just that. So no dish of an interpreter is ever spoilt because an argument is missing or has the
wrong type.
-/

namespace Bakehouse

/-- The fault is that an argument is missing or has the wrong type. -/
def Fault.blamesArguments : Fault → Bool
  | .missingArgument _ | .integerExpected | .textExpected => true
  | _ => false

/-- Whatever goes wrong, the arguments are not to blame. -/
def Blameless {α : Type} (r : Except Trouble α) : Prop :=
  ∀ f, r = .error (.fault f) → f.blamesArguments = false

namespace Blameless

variable {α β : Type}

theorem ok (a : α) : Blameless (.ok a : Except Trouble α) :=
  nofun

theorem fault {f : Fault} (h : f.blamesArguments = false) :
    Blameless (.error (.fault f) : Except Trouble α) := by
  rintro g ⟨⟩
  exact h

theorem escape (e : Escape) : Blameless (.error (.escape e) : Except Trouble α) :=
  nofun

theorem liftEscape (r : Except Escape α) : Blameless (liftEscape r) := by
  cases r with
  | error e => exact escape e
  | ok a => exact ok a

theorem bind {r : Except Trouble α} {k : α → Except Trouble β} (hr : Blameless r)
    (hk : ∀ a, Blameless (k a)) : Blameless (r >>= k) := by
  cases r with
  | error e =>
      intro f hf
      cases hf
      exact hr f rfl
  | ok a => exact hk a

end Blameless

theorem liftFault_bind {α β : Type} (r : Except Fault α) (k : α → Except Fault β) :
    liftFault (r >>= k) = liftFault r >>= fun a => liftFault (k a) := by
  cases r <;> rfl

namespace Payload

theorem blameless_textOf (source : String) (p : Payload) :
    Blameless (liftFault (p.textOf source)) := by
  cases p with
  | text s => exact .ok _
  | binary bs => exact .fault rfl

theorem blameless_textForPattern (p : Payload) : Blameless (liftFault p.textForPattern) := by
  cases p with
  | text s => exact .ok _
  | binary bs => exact .fault rfl

theorem blameless_fromNumerals (radix : Nat) (p : Payload) :
    Blameless (liftFault (p.fromNumerals radix)) := by
  rw [fromNumerals, liftFault_bind]
  refine (p.blameless_textOf _).bind fun cs => ?_
  cases Numeral.decode radix cs with
  | ok bs => exact .ok _
  | error cause => exact .fault rfl

theorem blameless_fromBase64 (p : Payload) : Blameless (liftFault p.fromBase64) := by
  rw [fromBase64, liftFault_bind]
  refine (p.blameless_textOf _).bind fun cs => ?_
  cases Base64.decode cs with
  | ok bs => exact .ok _
  | error cause => exact .fault rfl

theorem blameless_toRadix (radix : Int) (spelled : String) (p : Payload) :
    Blameless (liftFault (p.toRadix radix spelled)) := by
  rw [toRadix]
  split
  · exact .ok _
  split
  · exact .ok _
  · exact .fault rfl

theorem blameless_fromRadix (radix : Int) (spelled : String) (p : Payload) :
    Blameless (liftFault (p.fromRadix radix spelled)) := by
  rw [fromRadix]
  split
  · exact p.blameless_fromNumerals _
  · exact .fault rfl

theorem blameless_take (n : Int) (p : Payload) : Blameless (liftFault (p.take n)) := by
  rw [take]
  split
  · exact .fault rfl
  · exact .ok _

theorem blameless_drop (n : Int) (p : Payload) : Blameless (liftFault (p.drop n)) := by
  rw [drop]
  split
  · exact .fault rfl
  · exact .ok _

end Payload

theorem blameless_compilePattern (characters : Pattern.CharacterNames) (text : String) :
    Blameless (compilePattern characters text) := by
  rw [compilePattern]
  split
  · exact .ok _
  · exact .fault rfl
  · exact .escape _

/-- The argument is there and has the type. -/
def ArgumentType.FoundIn (bag : Arguments) (name : String) : ArgumentType → Prop
  | .integer => ∃ n, bag.integer name = .ok n
  | .text => ∃ s, bag.text name = .ok s

namespace Catalog

variable {bag : Arguments}

/-- An operation asks for no more than it declares. -/
theorem blameless_run (op : Catalog) (hfound : ∀ q ∈ op.parameters, q.2.FoundIn bag q.1)
    (p : Payload) : Blameless (op.run bag p) := by
  cases op with
  | rot13 =>
      obtain ⟨n, hn⟩ : ArgumentType.integer.FoundIn bag "n" := hfound _ List.mem_cons_self
      simp only [run, hn]
      exact .liftEscape _
  | fromBase64 => exact p.blameless_fromBase64
  | fromDecimal | fromOctal | fromHex | fromBinary => exact p.blameless_fromNumerals _
  | fromRadix =>
      obtain ⟨n, hn⟩ : ArgumentType.integer.FoundIn bag "radix" := hfound _ List.mem_cons_self
      obtain ⟨a, ha⟩ := Arguments.get_of_integer hn
      simp only [run, hn, ha]
      exact p.blameless_fromRadix _ _
  | toRadix =>
      obtain ⟨n, hn⟩ : ArgumentType.integer.FoundIn bag "radix" := hfound _ List.mem_cons_self
      obtain ⟨a, ha⟩ := Arguments.get_of_integer hn
      simp only [run, hn, ha]
      exact p.blameless_toRadix _ _
  | regexMatch characters =>
      obtain ⟨pattern, hpattern⟩ : ArgumentType.text.FoundIn bag "pattern" :=
        hfound _ List.mem_cons_self
      simp only [run, matchPattern, hpattern]
      refine (blameless_compilePattern characters pattern).bind fun compiled => ?_
      exact p.blameless_textForPattern.bind fun cs => .ok _
  | regexReplace characters =>
      obtain ⟨pattern, hpattern⟩ : ArgumentType.text.FoundIn bag "pattern" :=
        hfound _ List.mem_cons_self
      obtain ⟨template, htemplate⟩ : ArgumentType.text.FoundIn bag "replacement" :=
        hfound ("replacement", .text) (by simp [parameters])
      simp only [run, replacePattern, hpattern, htemplate]
      refine (blameless_compilePattern characters pattern).bind fun compiled => ?_
      refine p.blameless_textForPattern.bind fun cs => ?_
      exact (Blameless.liftEscape _).bind fun cs => .ok _
  | takeBytes =>
      obtain ⟨n, hn⟩ : ArgumentType.integer.FoundIn bag "n" := hfound _ List.mem_cons_self
      simp only [run, hn]
      exact p.blameless_take n
  | dropBytes =>
      obtain ⟨n, hn⟩ : ArgumentType.integer.FoundIn bag "n" := hfound _ List.mem_cons_self
      simp only [run, hn]
      exact p.blameless_drop n
  | _ => exact .ok _

theorem nodup_parameters (op : Catalog) : (op.parameters.map (·.1)).Nodup := by
  cases op with
  | regexMatch characters => exact List.nodup_singleton _
  | regexReplace characters => exact List.nodup_cons.mpr ⟨by decide, List.nodup_singleton _⟩
  | _ => decide

end Catalog

/-- A call makes every argument that is declared. -/
theorem Operation.Makes.foundIn {op : Operation} {bag : Arguments} (h : op.Makes bag)
    (hnodup : (op.parameters.map (·.1)).Nodup) : ∀ p ∈ op.parameters, p.2.FoundIn bag p.1 := by
  obtain ⟨vs, s, t, h⟩ := h
  have hbag : (op.arguments vs s).1 = .ok bag := congrArg Prod.fst h
  obtain ⟨hlength, -⟩ := entries_of_arguments hnodup hbag
  rintro ⟨name, type⟩ hp
  rw [← List.map_fst_zip hlength.ge, List.mem_map] at hp
  obtain ⟨⟨_, v⟩, hq, rfl⟩ := hp
  cases type with
  | integer =>
      obtain ⟨_, _, -, -, hn⟩ := integer_of_arguments hnodup hbag hq
      exact ⟨_, hn⟩
  | text => exact ⟨_, text_of_arguments hnodup hbag hq⟩

/-- Called with its arguments, an operation gives a function that keeps what they were made into. -/
theorem Operation.exists_of_apply {op : Operation} (harity : op.arity ≠ 0) {fuel id : Nat}
    {vs : List Value} {caller : FrameId} {s t : Store} {v : Value}
    (h : apply (fuel + 1) (.native id (.operation op)) vs caller s = (.ok v, t)) :
    ∃ k bag, v = .native k (.configured op bag) ∧ (op.arguments vs s).1 = .ok bag := by
  rw [apply_succ] at h
  simp only [applyStep, Native.run, if_neg harity] at h
  obtain ⟨bag, u, hbag, hrest⟩ := Run.bind_eq_ok h
  obtain ⟨k, w, -, hv⟩ := Run.bind_eq_ok hrest
  cases hv
  exact ⟨k, bag, rfl, congrArg Prod.fst hbag⟩

/-- A fault that an operation of the catalog finds comes from its transformation. -/
theorem Catalog.exists_run_of_finds {op : Catalog} {bag : Arguments} {f : Fault}
    (h : op.operation.Finds bag f) : ∃ p, op.run bag p = .error (.fault f) := by
  obtain ⟨runText, handle, s, t, h⟩ := h
  simp only [Operation.runProcedure, Catalog.operation, Run.get_bind_apply] at h
  cases hdish : s.dish handle with
  | failed g =>
      simp only [hdish] at h
      cases h
  | good p =>
      refine ⟨p, ?_⟩
      rcases hrun : op.run bag p with (g | e) | q <;> simp only [hdish, hrun] at h
      · cases h
        rfl
      · cases h
      · rw [Run.bind_apply_ok (Comparison.updatePayload_good _ hdish)] at h
        cases h

theorem Catalog.blameless_finds {op : Catalog} {bag : Arguments} (hbag : op.operation.Makes bag)
    {f : Fault} (h : op.operation.Finds bag f) : f.blamesArguments = false := by
  obtain ⟨p, hrun⟩ := exists_run_of_finds h
  exact op.blameless_run (hbag.foundIn op.nodup_parameters) p f hrun

/-- Operations come from the catalog, and those with parameters have been configured by a call. -/
def Native.Proper : Native → Prop
  | .builtin _ => True
  | .operation op => ∃ entry : Catalog, op = entry.operation
  | .configured op bag => op.Makes bag ∧ ∃ entry : Catalog, op = entry.operation

theorem Native.Proper.blameless {g : Native} (hg : g.Proper) {f : Fault} (h : g.Spoils f) :
    f.blamesArguments = false := by
  cases g with
  | builtin b => cases h
  | operation op =>
      obtain ⟨entry, rfl⟩ := hg
      obtain ⟨harity, hfinds⟩ := h
      exact Catalog.blameless_finds (Operation.makes_empty harity) hfinds
  | configured op bag =>
      obtain ⟨hmakes, entry, rfl⟩ := hg
      exact Catalog.blameless_finds hmakes h

/-- No dish has been spoilt because of an argument. -/
def argumentsFound : Invariant where
  Stage := Unit
  allowed := Native.Proper
  writable _ := True
  holds _ s := ∀ h f, s.dish h = .failed f → f.blamesArguments = false
  configured hmakes hop := ⟨hmakes, hop⟩
  writable_base _ _ := trivial
  congr hs _ hcells := by
    simp only [Store.dish, hcells] at hs ⊢
    exact hs
  push _ hs := ⟨trivial, hs⟩
  define _ _ hs _ := hs
  newDish p hs h f hfailed := hs h f (Store.failed_of_newDish hfailed)
  payload q hs _ h f hfailed :=
    hs h f ((Store.failed_of_setDish hfailed).resolve_right nofun)
  borrow hs _ _ := by
    refine ⟨(), fun h f hfailed => ?_, fun ht => ⟨fun h f hfailed => ?_, ?_⟩⟩
    · rw [Store.dish_setBorrowed] at hfailed
      exact hs h f hfailed
    · rw [Store.dish_setBorrowed] at hfailed
      exact ht h f hfailed
    · intro g fault hg hspoils h f hfailed
      rw [Store.dish_setBorrowed] at hfailed
      rcases Store.failed_of_setDish hfailed with hbefore | hnew
      · exact ht h f hbefore
      · cases hnew
        exact hg.blameless hspoils

theorem Session.stands_argumentsFound {s : Store} (hs : Session s) :
    argumentsFound.Stands () s := by
  induction hs with
  | initial =>
      exact Invariant.stands_initial (I := argumentsFound) _ (fun _ => trivial)
        (fun op => ⟨op, rfl⟩) trivial fun _ _ hfailed => nomatch hfailed
  | evalOne fuel code _ ih => exact ih.evalOne fuel code trivial
  | evalText fuel code _ ih => exact ih.evalText fuel code trivial

/-- A call with one acceptable value for every parameter makes arguments under just the names of the
parameters, and each is found as what its value was converted to. Any other call fails: by the
number of values, or by the first that is not acceptable. The function that a call gives keeps the
arguments. Operations of the catalog ask for what they declare, so no dish of an interpreter is
spoilt because of an argument. -/
theorem operations_find_their_arguments :
    (∀ (op : Operation) (vs : List Value) (s : Store), (op.parameters.map (·.1)).Nodup →
      (op.arguments vs s).2 = s ∧
      ((∃ bag, (op.arguments vs s).1 = .ok bag) ↔
        vs.length = op.arity ∧ ∀ q ∈ op.parameters.zip vs, q.1.2.Accepts q.2) ∧
      (∀ bag, (op.arguments vs s).1 = .ok bag →
        bag.entries.map (·.1) = op.parameters.map (·.1) ∧
        (∀ name v, ((name, .integer), v) ∈ op.parameters.zip vs →
          ∃ x b, v = .number x ∧ Number.kind x = .finite b ∧
            bag.integer name = .ok (Number.towardZero b.value)) ∧
        ∀ name v, ((name, .text), v) ∈ op.parameters.zip vs →
          bag.text name = .ok (s.display v)) ∧
      (vs.length ≠ op.arity →
        (op.arguments vs s).1 = .error (.error (.arity (.operation op.arity vs.length)))) ∧
      ∀ before q after, vs.length = op.arity → op.parameters.zip vs = before ++ q :: after →
        (∀ r ∈ before, r.1.2.Accepts r.2) → ¬ q.1.2.Accepts q.2 →
        (op.arguments vs s).1 = .error (.error (.type (q.1.2.refusal (s.display q.2))))) ∧
    (∀ (op : Operation) fuel id vs caller s t v, op.arity ≠ 0 →
      apply (fuel + 1) (.native id (.operation op)) vs caller s = (.ok v, t) →
      ∃ k bag, v = .native k (.configured op bag) ∧ (op.arguments vs s).1 = .ok bag) ∧
    (∀ entry : Catalog, (entry.parameters.map (·.1)).Nodup ∧
      ∀ bag f, entry.operation.Makes bag → entry.operation.Finds bag f →
        f.blamesArguments = false) ∧
    ∀ s, Session s → ∀ h f, s.dish h = .failed f → f.blamesArguments = false := by
  refine ⟨fun op vs s hnodup => ⟨op.arguments_snd vs s, Operation.exists_arguments_iff hnodup,
    fun bag h => ⟨?_, fun name v => Operation.integer_of_arguments hnodup h,
      fun name v => Operation.text_of_arguments hnodup h⟩, fun hlength => ?_,
    fun before q after hlength hsplit hbefore hq => ?_⟩,
    fun op fuel id vs caller s t v harity => Operation.exists_of_apply harity,
    fun entry => ⟨entry.nodup_parameters, fun bag f hbag => Catalog.blameless_finds hbag⟩,
    fun s hs => hs.stands_argumentsFound.holds⟩
  · obtain ⟨hlength, hentries⟩ := Operation.entries_of_arguments hnodup h
    exact Operation.names_of_entries hlength hentries
  · rw [Operation.arguments_of_length_ne hlength]
  · rw [Operation.arguments_refuses hlength hsplit hbefore hq]

/-- A negative number with a fraction and a list, in this order and in the other, and a dish that is
spoilt because of something else. -/
theorem operations_find_their_arguments_mixed :
    let op : Operation := ⟨"glaze", [("n", .integer), ("label", .text)], .custom []⟩
    let x : Value := .number (-2.5)
    let v : Value := .list [.number 1, .boolean true]
    let bag : Arguments := ⟨[("n", .integer (-2)), ("label", .text "(1 true)")]⟩
    let s := (evalText 9 "((take-bytes (- 0 1)) d\"ab\")" (Store.initial [])).2
    (op.parameters.map (·.1)).Nodup ∧
    op.arguments [x, v] Store.empty = (.ok bag, Store.empty) ∧
    bag.integer "n" = .ok (Number.towardZero (-2.5)) ∧ bag.text "label" = .ok "(1 true)" ∧
    (op.arguments [v, x] Store.empty).1 =
      .error (.error (.type (.integerArgument "(1 true)"))) ∧
    Session s ∧ s.dish 0 = .failed .negativeTake ∧
    Fault.negativeTake.blamesArguments = false := by
  intro op x v bag s
  have hs : Session s := (Session.initial []).evalText 9 _
  have hdish : s.dish 0 = .failed .negativeTake := by decide +kernel
  have hnodup : (op.parameters.map (·.1)).Nodup := by decide
  have hmade : op.arguments [x, v] Store.empty = (.ok bag, Store.empty) := rfl
  have hv : ¬ ArgumentType.integer.Accepts v := by
    simp only [v]
    nofun
  have hkind : Number.kind (-2.5) = .finite ⟨true, 5 * 2 ^ 50, -51⟩ := by decide +kernel
  obtain ⟨hcalls, -, -, hsessions⟩ := operations_find_their_arguments
  obtain ⟨-, -, hfound, -⟩ := hcalls op [x, v] Store.empty hnodup
  obtain ⟨-, hinteger, htext⟩ := hfound bag (congrArg Prod.fst hmade)
  obtain ⟨y, b, hy, hb, hn⟩ := hinteger "n" x (by simp [op])
  obtain ⟨-, -, -, -, hrefuses⟩ := hcalls op [v, x] Store.empty hnodup
  have hvalue : b.value = -2.5 := by
    obtain rfl : (-2.5 : Float) = y := Value.number.inj hy
    rw [hkind] at hb
    cases hb
    norm_num [Number.Binary.value, Number.Binary.magnitude]
  refine ⟨hnodup, hmade, hvalue ▸ hn, htext "label" v (by simp [op]), ?_, hs, hdish,
    hsessions s hs 0 _ hdish⟩
  exact hrefuses [] (("n", .integer), v) [(("label", .text), x)] rfl rfl (by simp) hv

end Bakehouse
