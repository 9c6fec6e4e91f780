import Bakehouse.Proofs.Comparison
import Bakehouse.Proofs.Number.Interval
import Bakehouse.Proofs.Traversal
import Mathlib.Data.Rat.Floor

namespace Bakehouse

namespace Number

/-- The exact value. -/
def Binary.value (b : Binary) : ℚ :=
  if b.negative then -b.magnitude else b.magnitude

/-- The integer part: what is left without the fraction. -/
def towardZero (q : ℚ) : Int :=
  if 0 ≤ q then ⌊q⌋ else ⌈q⌉

theorem Binary.magnitude_nonneg (b : Binary) : 0 ≤ b.magnitude := by
  rw [magnitude]
  positivity

theorem Binary.floor_magnitude (b : Binary) :
    ⌊b.magnitude⌋ = ((b.ratio.1 / b.ratio.2 : Nat) : Int) := by
  rw [b.magnitude_eq, Rat.floor_natCast_div_natCast, Int.natCast_ediv]

theorem towardZero_neg {q : ℚ} (hq : 0 ≤ q) : towardZero (-q) = -⌊q⌋ := by
  rw [towardZero]
  split
  · rename_i hneg
    obtain rfl : q = 0 := le_antisymm (neg_nonneg.mp hneg) hq
    simp
  · exact Int.ceil_neg

theorem Binary.truncate_eq (b : Binary) : b.truncate = towardZero b.value := by
  have hnonneg := b.magnitude_nonneg
  simp only [truncate, value, ← b.floor_magnitude]
  split
  · exact (towardZero_neg hnonneg).symm
  · exact (if_pos hnonneg).symm

end Number

namespace Arguments

theorem get_of_mem {bag : Arguments} (hnodup : (bag.entries.map (·.1)).Nodup) {name : String}
    {a : Argument} (h : (name, a) ∈ bag.entries) : bag.get name = .ok a := by
  have hlookup : bag.entries.lookup name = some a := by
    obtain ⟨before, after, hsplit⟩ := List.append_of_mem h
    rw [hsplit, List.map_append, List.map_cons, List.nodup_append] at hnodup
    refine List.lookup_eq_some_iff.mpr ⟨before, after, hsplit, fun e he => ?_⟩
    have hne := hnodup.2.2 e.1 (List.mem_map_of_mem he) name List.mem_cons_self
    simpa using hne.symm
  rw [get, hlookup]

theorem insert_of_notMem {bag : Arguments} {name : String}
    (h : name ∉ bag.entries.map (·.1)) (a : Argument) :
    bag.insert name a = ⟨bag.entries ++ [(name, a)]⟩ := by
  have hcontains : bag.contains name = false := by
    rw [contains, Option.isSome_eq_false_iff, Option.isNone_iff_eq_none, List.lookup_eq_none_iff]
    intro e he
    have hne : name ≠ e.1 := fun heq => h (heq ▸ List.mem_map_of_mem he)
    simpa using hne
  rw [insert, hcontains]
  rfl

/-- Different names do not get into each other's way. -/
theorem foldl_insert (bag : Arguments) {entries : List (String × Argument)}
    (hnodup : (bag.entries.map (·.1) ++ entries.map (·.1)).Nodup) :
    entries.foldl (fun bag e => bag.insert e.1 e.2) bag = ⟨bag.entries ++ entries⟩ := by
  induction entries generalizing bag with
  | nil => simp
  | cons e entries ih =>
      have hnotMem : e.1 ∉ bag.entries.map (·.1) := by
        intro hmem
        exact (List.nodup_append.mp hnodup).2.2 _ hmem _ List.mem_cons_self rfl
      rw [List.foldl_cons, insert_of_notMem hnotMem, ih]
      · simp
      · simpa using hnodup

end Arguments

/-- An integer can be made of finite numbers, and a text of everything but functions. -/
inductive ArgumentType.Accepts : ArgumentType → Value → Prop
  | integer {x : Float} {b : Number.Binary} (hx : Number.kind x = .finite b) :
      Accepts .integer (.number x)
  | text {v : Value} (hv : v.isFunction = false) : Accepts .text v

/-- What is made of a value in the store `s`. -/
inductive ArgumentType.Makes (s : Store) : ArgumentType → Value → Argument → Prop
  | integer {x : Float} {b : Number.Binary} (hx : Number.kind x = .finite b) :
      Makes s .integer (.number x) (.integer (Number.towardZero b.value))
  | text {v : Value} (hv : v.isFunction = false) : Makes s .text v (.text (s.display v))

/-- The error for a value that is not accepted. -/
def ArgumentType.refusal : ArgumentType → String → TypeError
  | .integer => .integerArgument
  | .text => .textArgument

theorem ArgumentType.Makes.accepts {s : Store} {type : ArgumentType} {v : Value} {a : Argument}
    (h : type.Makes s v a) : type.Accepts v := by
  cases h with
  | integer hx => exact .integer hx
  | text hv => exact .text hv

theorem ArgumentType.Accepts.exists_makes {type : ArgumentType} {v : Value} (h : type.Accepts v)
    (s : Store) : ∃ a, type.Makes s v a := by
  cases h with
  | integer hx => exact ⟨_, .integer hx⟩
  | text hv => exact ⟨_, .text hv⟩

namespace Operation

theorem convert_makes {s : Store} {type : ArgumentType} {v : Value} {a : Argument}
    (h : type.Makes s v a) : convert type v s = (.ok a, s) := by
  cases h with
  | integer hx =>
      simp only [convert, integerArgument, Number.truncate?, hx, ← Number.Binary.truncate_eq]
      rfl
  | text hv =>
      simp only [convert, textArgument, hv]
      rfl

theorem integerArgument_refuses {v : Value} (hv : ¬ ArgumentType.integer.Accepts v) (s : Store) :
    integerArgument v s = (.error (.error (.type (.integerArgument (s.display v)))), s) := by
  cases v with
  | number x =>
      have hnone : Number.truncate? x = none := by
        rw [Number.truncate?]
        split
        · rename_i b hx
          exact absurd (.integer hx) hv
        · rfl
      simp only [integerArgument, hnone]
      rfl
  | _ => rfl

theorem textArgument_refuses {v : Value} (hv : ¬ ArgumentType.text.Accepts v) (s : Store) :
    textArgument v s = (.error (.error (.type (.textArgument (s.display v)))), s) := by
  have hfunction : v.isFunction = true := by
    by_contra hplain
    exact hv (.text (Bool.eq_false_iff.mpr hplain))
  simp only [textArgument, hfunction]
  rfl

theorem convert_refuses {type : ArgumentType} {v : Value} (hv : ¬ type.Accepts v) (s : Store) :
    convert type v s = (.error (.error (.type (type.refusal (s.display v)))), s) := by
  cases type with
  | integer => exact integerArgument_refuses hv s
  | text => exact textArgument_refuses hv s

theorem convert_snd (type : ArgumentType) (v : Value) (s : Store) : (convert type v s).2 = s := by
  by_cases h : type.Accepts v
  · obtain ⟨a, ha⟩ := h.exists_makes s
    rw [convert_makes ha]
  · rw [convert_refuses h]

/-- The argument that a value is made into, under the name of its parameter. -/
def entry (s : Store) (q : (String × ArgumentType) × Value) : Except Halt (String × Argument) :=
  (convert q.1.2 q.2 s).1.map fun a => (q.1.1, a)

theorem entry_eq_ok_iff {s : Store} {q : (String × ArgumentType) × Value}
    {e : String × Argument} :
    entry s q = .ok e ↔ e.1 = q.1.1 ∧ q.1.2.Makes s q.2 e.2 := by
  constructor
  · intro h
    obtain ⟨a, ha, rfl⟩ := exists_of_map h
    refine ⟨rfl, ?_⟩
    by_cases hv : q.1.2.Accepts q.2
    · obtain ⟨b, hb⟩ := hv.exists_makes s
      rw [convert_makes hb] at ha
      cases ha
      exact hb
    · rw [convert_refuses hv] at ha
      cases ha
  · rintro ⟨hname, hmakes⟩
    rw [entry, convert_makes hmakes, ← hname]
    rfl

theorem entry_refuses {q : (String × ArgumentType) × Value} (hq : ¬ q.1.2.Accepts q.2)
    (s : Store) : entry s q = .error (.error (.type (q.1.2.refusal (s.display q.2)))) := by
  rw [entry, convert_refuses hq]
  rfl

theorem exists_entry {q : (String × ArgumentType) × Value} (hq : q.1.2.Accepts q.2) (s : Store) :
    ∃ e, entry s q = .ok e := by
  obtain ⟨a, ha⟩ := hq.exists_makes s
  exact ⟨(q.1.1, a), entry_eq_ok_iff.mpr ⟨rfl, ha⟩⟩

theorem convertAll_eq (params : List (String × ArgumentType)) (vs : List Value) (s : Store) :
    convertAll params vs s = ((params.zip vs).mapM (entry s), s) := by
  induction params generalizing vs with
  | nil => rfl
  | cons p params ih =>
      cases vs with
      | nil => rfl
      | cons v vs =>
          have hconvert : convert p.2 v s = ((convert p.2 v s).1, s) :=
            Prod.ext rfl (convert_snd p.2 v s)
          simp only [convertAll, List.zip_cons_cons, List.mapM_cons]
          rw [Run.bind_apply, hconvert, entry]
          cases (convert p.2 v s).1 with
          | error e => rfl
          | ok a =>
              change (convertAll params vs >>= fun later => pure ((p.1, a) :: later)) s = _
              rw [Run.bind_apply, ih]
              cases (params.zip vs).mapM (entry s) <;> rfl

variable {op : Operation} {vs : List Value} {s : Store}

theorem arguments_of_length_ne (h : vs.length ≠ op.arity) (s : Store) :
    op.arguments vs s = (.error (.error (.arity (.operation op.arity vs.length))), s) := by
  rw [arguments, if_neg h.symm]
  rfl

/-- With one value for every parameter, the values are converted one after the other. -/
theorem arguments_eq (hlength : vs.length = op.arity) (s : Store) :
    op.arguments vs s =
      (((op.parameters.zip vs).mapM (entry s)).map
        fun entries => entries.foldl (fun bag e => bag.insert e.1 e.2) .empty, s) := by
  rw [arguments, if_pos hlength.symm, Run.bind_apply, convertAll_eq]
  cases (op.parameters.zip vs).mapM (entry s) <;> rfl

theorem arguments_snd (op : Operation) (vs : List Value) (s : Store) :
    (op.arguments vs s).2 = s := by
  by_cases hlength : vs.length = op.arity
  · rw [arguments_eq hlength]
  · rw [arguments_of_length_ne hlength]

theorem names_of_entries (hlength : vs.length = op.arity) {entries : List (String × Argument)}
    (h : (op.parameters.zip vs).mapM (entry s) = .ok entries) :
    entries.map (·.1) = op.parameters.map (·.1) := by
  rw [map_eq_of_mapM (fun h => (entry_eq_ok_iff.mp h).1) h]
  change (op.parameters.zip vs).map ((·.1) ∘ Prod.fst) = _
  rw [← List.map_map, List.map_fst_zip hlength.ge]

theorem arguments_refuses (hlength : vs.length = op.arity)
    {before after : List ((String × ArgumentType) × Value)} {q : (String × ArgumentType) × Value}
    (hsplit : op.parameters.zip vs = before ++ q :: after)
    (hbefore : ∀ r ∈ before, r.1.2.Accepts r.2) (hq : ¬ q.1.2.Accepts q.2) (s : Store) :
    op.arguments vs s = (.error (.error (.type (q.1.2.refusal (s.display q.2)))), s) := by
  have herror := mapM_eq_error_iff.mpr
    ⟨before, q, after, hsplit, fun r hr => exists_entry (hbefore r hr) s, entry_refuses hq s⟩
  rw [arguments_eq hlength, herror]
  rfl

theorem makes_empty (harity : op.arity = 0) : op.Makes .empty := by
  have hnil : op.parameters = [] := List.length_eq_zero_iff.mp harity
  have hlength : ([] : List Value).length = op.arity := harity.symm
  refine ⟨[], Store.empty, Store.empty, ?_⟩
  rw [arguments_eq hlength, hnil]
  rfl

section Distinct

variable (hnodup : (op.parameters.map (·.1)).Nodup) {bag : Arguments} {name : String} {v : Value}
include hnodup

/-- The arguments are the converted values. -/
theorem entries_of_arguments (h : (op.arguments vs s).1 = .ok bag) :
    vs.length = op.arity ∧ (op.parameters.zip vs).mapM (entry s) = .ok bag.entries := by
  by_cases hlength : vs.length = op.arity
  · refine ⟨hlength, ?_⟩
    rw [arguments_eq hlength] at h
    obtain ⟨entries, hentries, rfl⟩ := exists_of_map h
    have hnames := names_of_entries hlength hentries
    rw [hentries, Arguments.foldl_insert .empty (by simpa [Arguments.empty, hnames] using hnodup)]
    rfl
  · rw [arguments_of_length_ne hlength] at h
    cases h

theorem exists_arguments_iff :
    (∃ bag, (op.arguments vs s).1 = .ok bag) ↔
      vs.length = op.arity ∧ ∀ q ∈ op.parameters.zip vs, q.1.2.Accepts q.2 := by
  constructor
  · rintro ⟨bag, h⟩
    obtain ⟨hlength, hentries⟩ := entries_of_arguments hnodup h
    refine ⟨hlength, fun q hq => ?_⟩
    obtain ⟨e, -, he⟩ := exists_mem_of_mapM hentries hq
    exact (entry_eq_ok_iff.mp he).2.accepts
  · rintro ⟨hlength, haccepts⟩
    obtain ⟨entries, hentries⟩ :=
      exists_mapM_eq_ok_iff.mpr fun q hq => exists_entry (haccepts q hq) s
    rw [arguments_eq hlength, hentries]
    exact ⟨_, rfl⟩

/-- Every argument is found under its name. -/
theorem get_of_arguments (h : (op.arguments vs s).1 = .ok bag)
    {q : (String × ArgumentType) × Value} (hq : q ∈ op.parameters.zip vs) :
    ∃ a, q.1.2.Makes s q.2 a ∧ bag.get q.1.1 = .ok a := by
  obtain ⟨hlength, hentries⟩ := entries_of_arguments hnodup h
  have hnames := names_of_entries hlength hentries
  obtain ⟨⟨name, a⟩, he, hentry⟩ := exists_mem_of_mapM hentries hq
  obtain ⟨rfl, hmakes⟩ := entry_eq_ok_iff.mp hentry
  exact ⟨a, hmakes, Arguments.get_of_mem (hnames ▸ hnodup) he⟩

theorem integer_of_arguments (h : (op.arguments vs s).1 = .ok bag)
    (hv : ((name, .integer), v) ∈ op.parameters.zip vs) :
    ∃ x b, v = .number x ∧ Number.kind x = .finite b ∧
      bag.integer name = .ok (Number.towardZero b.value) := by
  obtain ⟨a, hmakes, hget⟩ := get_of_arguments hnodup h hv
  cases hmakes with
  | integer hx =>
      refine ⟨_, _, rfl, hx, ?_⟩
      rw [Arguments.integer, hget]
      rfl

theorem text_of_arguments (h : (op.arguments vs s).1 = .ok bag)
    (hv : ((name, .text), v) ∈ op.parameters.zip vs) : bag.text name = .ok (s.display v) := by
  obtain ⟨a, hmakes, hget⟩ := get_of_arguments hnodup h hv
  cases hmakes with
  | text hv =>
      rw [Arguments.text, hget]
      rfl

end Distinct

end Operation

end Bakehouse
