import Bakehouse.Operation.Catalog
import Bakehouse.Proofs.Utf8

namespace Bakehouse

namespace Base64

/-- The symbols in the order of their values. -/
def alphabet : List Char :=
  "ABCDEFGHIJKLMNOPQRSTUVWXYZabcdefghijklmnopqrstuvwxyz0123456789+/".toList

/-- The text has the canonical form for this number of bytes: groups of four symbols for three bytes
each, the last one filled up with padding if there are fewer bytes for it. The bits of its last symbol
that belong to no byte are zero. -/
inductive Canonical : Nat → List Char → Prop where
  | nil : Canonical 0 []
  | one {s t : Char} (hs : s ∈ alphabet) (ht : t ∈ alphabet) (hspare : 16 ∣ alphabet.idxOf t) :
      Canonical 1 [s, t, '=', '=']
  | two {s t u : Char} (hs : s ∈ alphabet) (ht : t ∈ alphabet) (hu : u ∈ alphabet)
      (hspare : 4 ∣ alphabet.idxOf u) : Canonical 2 [s, t, u, '=']
  | group {s t u v : Char} {n : Nat} {cs : List Char} (hs : s ∈ alphabet) (ht : t ∈ alphabet)
      (hu : u ∈ alphabet) (hv : v ∈ alphabet) (h : Canonical n cs) :
      Canonical (n + 3) (s :: t :: u :: v :: cs)

theorem Canonical.length_eq {n : Nat} {cs : List Char} (h : Canonical n cs) :
    cs.length = 4 * ((n + 2) / 3) := by
  induction h with
  | nil => rfl
  | one => rfl
  | two => rfl
  | group _ _ _ _ _ ih =>
      simp only [List.length_cons, ih]
      omega

theorem toNat_lt_of_mem_alphabet : ∀ c ∈ alphabet, c.toNat < 128 := by
  have hall : alphabet.all (fun c => c.toNat < 128) = true := by decide
  simpa using hall

theorem Canonical.toNat_lt {n : Nat} {cs : List Char} (h : Canonical n cs) :
    ∀ c ∈ cs, c.toNat < 128 := by
  induction h with
  | nil => simp
  | one hs ht => simp [toNat_lt_of_mem_alphabet _ hs, toNat_lt_of_mem_alphabet _ ht]
  | two hs ht hu =>
      simp [toNat_lt_of_mem_alphabet _ hs, toNat_lt_of_mem_alphabet _ ht,
        toNat_lt_of_mem_alphabet _ hu]
  | group hs ht hu hv _ ih =>
      simp only [List.forall_mem_cons]
      exact ⟨toNat_lt_of_mem_alphabet _ hs, toNat_lt_of_mem_alphabet _ ht,
        toNat_lt_of_mem_alphabet _ hu, toNat_lt_of_mem_alphabet _ hv, ih⟩

theorem Canonical.head?_ne {n : Nat} {cs : List Char} (h : Canonical n cs) :
    cs.head? ≠ some '=' := by
  have hpad : '=' ∉ alphabet := by decide
  intro heq
  cases h with
  | nil => cases heq
  | one hs => exact hpad (Option.some.inj heq ▸ hs)
  | two hs => exact hpad (Option.some.inj heq ▸ hs)
  | group hs => exact hpad (Option.some.inj heq ▸ hs)

theorem idxOf_symbol : ∀ n < 64, alphabet.idxOf (symbol n) = n := by
  decide +kernel

theorem symbol_mem : ∀ n < 64, symbol n ∈ alphabet := by
  decide +kernel

theorem symbol_ne_pad : ∀ n < 64, symbol n ≠ '=' := by
  decide +kernel

theorem symbolValue?_symbol : ∀ n < 64, symbolValue? (symbol n) = some n := by
  decide +kernel

theorem canonical_encode (bs : List UInt8) : Canonical bs.length (encode bs) := by
  induction bs using encode.induct with
  | case1 a b c rest ih =>
      have ha : a.toNat < 256 := UInt8.toNat_lt a
      have hb : b.toNat < 256 := UInt8.toNat_lt b
      have hc : c.toNat < 256 := UInt8.toNat_lt c
      exact .group (symbol_mem _ (by omega)) (symbol_mem _ (by omega)) (symbol_mem _ (by omega))
        (symbol_mem _ (by omega)) ih
  | case2 a b =>
      have ha : a.toNat < 256 := UInt8.toNat_lt a
      have hb : b.toNat < 256 := UInt8.toNat_lt b
      refine .two (symbol_mem _ (by omega)) (symbol_mem _ (by omega)) (symbol_mem _ (by omega)) ?_
      rw [idxOf_symbol _ (by omega)]
      omega
  | case3 a =>
      have ha : a.toNat < 256 := UInt8.toNat_lt a
      refine .one (symbol_mem _ (by omega)) (symbol_mem _ (by omega)) ?_
      rw [idxOf_symbol _ (by omega)]
      omega
  | case4 => exact .nil

theorem run_symbol {s : State} (hs : s.padded = false) {n : Nat} (hn : n < 64) (cs : List Char) :
    run s (symbol n :: cs) = run (s.push n) cs := by
  rw [run]
  · simp only [symbolValue?_symbol n hn, hs]
    rfl
  · exact symbol_ne_pad n hn

/-- The decoder between two groups, with the bytes that it has read. -/
def State.between (done : List UInt8) : State :=
  ⟨0, 0, 0, false, done⟩

/-- The first two symbols of a group give its first byte and four bits of the second one. -/
theorem run_two (done : List UInt8) (a : UInt8) {high : Nat} (hhigh : high < 16) (cs : List Char) :
    run (.between done) (symbol (a.toNat / 4) :: symbol (a.toNat % 4 * 16 + high) :: cs) =
      run ⟨2, high, 0, false, done ++ [a]⟩ cs := by
  have ha : a.toNat < 256 := UInt8.toNat_lt a
  rw [run_symbol rfl (by omega), run_symbol rfl (by omega)]
  have hbyte : UInt8.ofNat (a.toNat / 4 * 4 + (a.toNat % 4 * 16 + high) / 16) = a :=
    Utf8.byte_eq (by omega)
  have hcarry : (a.toNat % 4 * 16 + high) % 16 = high := by omega
  simp only [State.between, State.push, hbyte, hcarry]

theorem run_third (done : List UInt8) (b : UInt8) {high : Nat} (hhigh : high < 4) (cs : List Char) :
    run ⟨2, b.toNat / 16, 0, false, done⟩ (symbol (b.toNat % 16 * 4 + high) :: cs) =
      run ⟨3, high, 0, false, done ++ [b]⟩ cs := by
  have hb : b.toNat < 256 := UInt8.toNat_lt b
  rw [run_symbol rfl (by omega)]
  have hbyte : UInt8.ofNat (b.toNat / 16 * 16 + (b.toNat % 16 * 4 + high) / 4) = b :=
    Utf8.byte_eq (by omega)
  have hcarry : (b.toNat % 16 * 4 + high) % 4 = high := by omega
  simp only [State.push, hbyte, hcarry]

theorem run_fourth (done : List UInt8) (c : UInt8) (cs : List Char) :
    run ⟨3, c.toNat / 64, 0, false, done⟩ (symbol (c.toNat % 64) :: cs) =
      run (.between (done ++ [c])) cs := by
  rw [run_symbol rfl (by omega)]
  have hbyte : UInt8.ofNat (c.toNat / 64 * 64 + c.toNat % 64) = c := Utf8.byte_eq (by omega)
  simp only [State.push, State.between, hbyte]

/-- Between two groups, the rest of an encoding adds its bytes to those that have been read. -/
theorem run_encode (bs done : List UInt8) : run (.between done) (encode bs) = .ok (done ++ bs) := by
  induction bs using encode.induct generalizing done with
  | case1 a b c rest ih =>
      have hb : b.toNat < 256 := UInt8.toNat_lt b
      have hc : c.toNat < 256 := UInt8.toNat_lt c
      rw [encode, run_two done a (by omega), run_third _ b (by omega), run_fourth, ih]
      simp
  | case2 a b =>
      have hb : b.toNat < 256 := UInt8.toNat_lt b
      have hthird := @run_third (done ++ [a]) b 0 (by omega) ['=']
      rw [Nat.add_zero] at hthird
      rw [encode, run_two done a (by omega), hthird, List.append_assoc]
      rfl
  | case3 a =>
      have htwo := @run_two done a 0 (by omega) ['=', '=']
      rw [Nat.add_zero] at htwo
      rw [encode, htwo]
      rfl
  | case4 =>
      rw [List.append_nil]
      rfl

theorem decode_encode (bs : List UInt8) : decode (encode bs) = .ok bs := by
  have hcanonical := canonical_encode bs
  have hascii : (encode bs).any (fun c => 128 ≤ c.toNat) = false := by
    rw [List.any_eq_false]
    intro c hc
    simpa using hcanonical.toNat_lt c hc
  have hhead : ((encode bs).head? == some '=') = false :=
    beq_eq_false_iff_ne.mpr hcanonical.head?_ne
  rw [decode, hascii, if_neg (by decide), hhead, if_neg (by decide)]
  exact run_encode bs []

end Base64

/-- A payload that is written in base64 gives a canonical text of ASCII characters, four of them for
every three bytes or part of three bytes, and reading that text gives its bytes as binary data. -/
theorem base64_is_read_back (p : Payload) (bag bag' : Arguments) :
    ∃ written, Catalog.toBase64.run bag p = .ok (.text written) ∧
      Base64.Canonical p.bytes.length written.toList ∧
      written.toList.length = 4 * ((p.bytes.length + 2) / 3) ∧
      (∀ c ∈ written.toList, c.toNat < 128) ∧
      Catalog.fromBase64.run bag' (.text written) = .ok (.binary p.bytes) := by
  have hcanonical := Base64.canonical_encode p.bytes
  refine ⟨String.ofList (Base64.encode p.bytes), rfl, ?_⟩
  have hread : Catalog.fromBase64.run bag' (.text (String.ofList (Base64.encode p.bytes))) =
      .ok (.binary p.bytes) := by
    simp only [Catalog.run, Payload.fromBase64, Payload.textOf, String.toList_ofList, bind,
      Except.bind, Base64.decode_encode]
    rfl
  rw [String.toList_ofList]
  exact ⟨hcanonical, hcanonical.length_eq, hcanonical.toNat_lt, hread⟩

end Bakehouse
