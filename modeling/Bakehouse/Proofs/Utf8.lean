import Bakehouse.Payload.Basic
import Mathlib.Data.List.Basic

namespace Bakehouse

namespace Utf8

theorem toNat_byte {n : Nat} (h : n < 256) : (byte n).toNat = n :=
  UInt8.toNat_ofNat_of_lt' h

theorem byte_eq {n : Nat} {b : UInt8} (h : n = b.toNat) : byte n = b := by
  rw [h]
  exact UInt8.ofNat_toNat

theorem start_one {b : UInt8} (h : b.toNat < 0x80) :
    start b = (.between, [some (Char.ofNat b.toNat)]) := by
  simp only [start, if_pos h]

theorem start_two {b : UInt8} (hlow : 0xc2 ≤ b.toNat) (hhigh : b.toNat < 0xe0) :
    start b = (.inside (b.toNat - 0xc0) 1 0x80 0xbf, []) := by
  simp only [start]
  rw [if_neg (by omega), if_neg (by omega), if_pos hhigh]

theorem start_three {b : UInt8} (hlow : 0xe0 ≤ b.toNat) (hhigh : b.toNat < 0xf0) :
    start b = (.inside (b.toNat - 0xe0) 2 (if b.toNat = 0xe0 then 0xa0 else 0x80)
      (if b.toNat = 0xed then 0x9f else 0xbf), []) := by
  simp only [start, beq_iff_eq]
  rw [if_neg (by omega), if_neg (by omega), if_neg (by omega)]
  by_cases he0 : b.toNat = 0xe0
  · simp [he0]
  · by_cases hed : b.toNat = 0xed
    · simp [hed]
    · simp [he0, hed, hhigh]

theorem start_four {b : UInt8} (hlow : 0xf0 ≤ b.toNat) (hhigh : b.toNat < 0xf5) :
    start b = (.inside (b.toNat - 0xf0) 3 (if b.toNat = 0xf0 then 0x90 else 0x80)
      (if b.toNat = 0xf4 then 0x8f else 0xbf), []) := by
  simp only [start, beq_iff_eq]
  rw [if_neg (by omega), if_neg (by omega), if_neg (by omega), if_neg (by omega), if_neg (by omega),
    if_neg (by omega)]
  by_cases hf0 : b.toNat = 0xf0
  · simp [hf0]
  · by_cases hf4 : b.toNat = 0xf4
    · simp [hf4]
    · have hlt : b.toNat < 0xf4 := by omega
      simp [hf0, hf4, hlt]

theorem start_none {b : UInt8} (h : 0x80 ≤ b.toNat ∧ b.toNat < 0xc2 ∨ 0xf5 ≤ b.toNat) :
    start b = (.between, [none]) := by
  simp only [start, beq_iff_eq]
  rcases h with ⟨hlow, hhigh⟩ | hlow
  · rw [if_neg (by omega), if_pos hhigh]
  · rw [if_neg (by omega), if_neg (by omega), if_neg (by omega), if_neg (by omega),
      if_neg (by omega), if_neg (by omega), if_neg (by omega), if_neg (by omega), if_neg (by omega)]

theorem scan_start {b : UInt8} {next : State} {settled : List (Option Char)}
    (h : start b = (next, settled)) (bs : List UInt8) :
    scan .between (b :: bs) = settled ++ scan next bs := by
  simp only [scan, step, h]

theorem scan_last {code low high : Nat} {b : UInt8} (hlow : low ≤ b.toNat) (hhigh : b.toNat ≤ high)
    (bs : List UInt8) :
    scan (.inside code 1 low high) (b :: bs) =
      some (Char.ofNat (code * 0x40 + (b.toNat - 0x80))) :: scan .between bs := by
  simp [scan, step, hlow, hhigh]

theorem scan_further {code missing low high : Nat} {b : UInt8} (hlow : low ≤ b.toNat)
    (hhigh : b.toNat ≤ high) (bs : List UInt8) :
    scan (.inside code (missing + 2) low high) (b :: bs) =
      scan (.inside (code * 0x40 + (b.toNat - 0x80)) (missing + 1) 0x80 0xbf) bs := by
  simp [scan, step, hlow, hhigh]

/-- Inside a character, bytes without a mark go on with one in the range. -/
theorem exists_byte {code missing low high : Nat} {bs : List UInt8}
    (h : none ∉ scan (.inside code missing low high) bs) :
    ∃ b rest, bs = b :: rest ∧ low ≤ b.toNat ∧ b.toNat ≤ high := by
  cases bs with
  | nil => simp [scan] at h
  | cons b rest =>
      refine ⟨b, rest, rfl, ?_⟩
      by_contra hrange
      have hout : (low ≤ b.toNat && b.toNat ≤ high) = false := by simpa using hrange
      simp [scan, step, hout] at h

theorem exists_further {code missing low high : Nat} {bs : List UInt8}
    (h : none ∉ scan (.inside code (missing + 2) low high) bs) :
    ∃ b rest, bs = b :: rest ∧ low ≤ b.toNat ∧ b.toNat ≤ high ∧
      none ∉ scan (.inside (code * 0x40 + (b.toNat - 0x80)) (missing + 1) 0x80 0xbf) rest := by
  obtain ⟨b, rest, rfl, hlow, hhigh⟩ := exists_byte h
  rw [scan_further hlow hhigh] at h
  exact ⟨b, rest, rfl, hlow, hhigh, h⟩

theorem toNat_valid (c : Char) : c.toNat < 0xd800 ∨ 0xdfff < c.toNat ∧ c.toNat < 0x110000 :=
  c.valid

theorem scan_encodeChar (c : Char) (bs : List UInt8) :
    scan .between (encodeChar c ++ bs) = some c :: scan .between bs := by
  have hvalid := toNat_valid c
  have hback {n : Nat} (hn : n = c.toNat) : Char.ofNat n = c := by rw [hn, Char.ofNat_toNat]
  unfold encodeChar
  simp only
  split
  · rename_i h
    have hb := toNat_byte (n := c.toNat) (by omega)
    rw [List.singleton_append, scan_start (start_one (by omega)), hb, hback rfl]
    rfl
  split
  · rename_i h
    have hb := toNat_byte (n := 0xc0 + c.toNat / 0x40) (by omega)
    have hc := toNat_byte (n := 0x80 + c.toNat % 0x40) (by omega)
    rw [List.cons_append, List.singleton_append, scan_start (start_two (by omega) (by omega)),
      List.nil_append, scan_last (by omega) (by omega), hback (by omega)]
  split
  · rename_i h
    have hb := toNat_byte (n := 0xe0 + c.toNat / 0x1000) (by omega)
    have hc := toNat_byte (n := 0x80 + c.toNat / 0x40 % 0x40) (by omega)
    have hd := toNat_byte (n := 0x80 + c.toNat % 0x40) (by omega)
    rw [List.cons_append, List.cons_append, List.singleton_append,
      scan_start (start_three (by omega) (by omega)), List.nil_append,
      scan_further (by split <;> omega) (by split <;> omega), scan_last (by omega) (by omega),
      hback (by omega)]
  · rename_i h
    have hb := toNat_byte (n := 0xf0 + c.toNat / 0x40000) (by omega)
    have hc := toNat_byte (n := 0x80 + c.toNat / 0x1000 % 0x40) (by omega)
    have hd := toNat_byte (n := 0x80 + c.toNat / 0x40 % 0x40) (by omega)
    have he := toNat_byte (n := 0x80 + c.toNat % 0x40) (by omega)
    rw [List.cons_append, List.cons_append, List.cons_append, List.singleton_append,
      scan_start (start_four (by omega) (by omega)), List.nil_append,
      scan_further (by split <;> omega) (by split <;> omega), scan_further (by omega) (by omega),
      scan_last (by omega) (by omega), hback (by omega)]

theorem toNat_ofNat {n : Nat} (h : n.isValidChar) : (Char.ofNat n).toNat = n := by
  rw [Char.ofNat, dif_pos h]
  rfl

theorem encodeChar_ofNat {n : Nat} (h : n < 0xd800 ∨ 0xdfff < n ∧ n < 0x110000) :
    encodeChar (Char.ofNat n) =
      if n < 0x80 then [byte n]
      else if n < 0x800 then [byte (0xc0 + n / 0x40), byte (0x80 + n % 0x40)]
      else if n < 0x10000 then
        [byte (0xe0 + n / 0x1000), byte (0x80 + n / 0x40 % 0x40), byte (0x80 + n % 0x40)]
      else
        [byte (0xf0 + n / 0x40000), byte (0x80 + n / 0x1000 % 0x40), byte (0x80 + n / 0x40 % 0x40),
          byte (0x80 + n % 0x40)] := by
  simp only [encodeChar, toNat_ofNat h]

/-- Bytes without a mark start with the encoding of a character. -/
theorem exists_char {b : UInt8} {bs : List UInt8} (h : none ∉ scan .between (b :: bs)) :
    ∃ c rest, b :: bs = encodeChar c ++ rest := by
  have hb : b.toNat < 256 := UInt8.toNat_lt b
  by_cases h80 : b.toNat < 0x80
  · refine ⟨Char.ofNat b.toNat, bs, ?_⟩
    rw [encodeChar_ofNat (by omega), if_pos h80, byte_eq rfl]
    rfl
  by_cases hnone : b.toNat < 0xc2 ∨ 0xf5 ≤ b.toNat
  · rw [scan_start (start_none (by omega))] at h
    simp at h
  by_cases he0 : b.toNat < 0xe0
  · rw [scan_start (start_two (by omega) he0), List.nil_append] at h
    obtain ⟨c, rest, rfl, hlow, hhigh⟩ := exists_byte h
    refine ⟨Char.ofNat ((b.toNat - 0xc0) * 0x40 + (c.toNat - 0x80)), rest, ?_⟩
    rw [encodeChar_ofNat (by omega), if_neg (by omega), if_pos (by omega),
      byte_eq (b := b) (by omega), byte_eq (b := c) (by omega)]
    rfl
  by_cases hf0 : b.toNat < 0xf0
  · rw [scan_start (start_three (by omega) hf0), List.nil_append] at h
    obtain ⟨c, rest, rfl, hlow, hhigh, h⟩ := exists_further h
    obtain ⟨d, rest, rfl, hlow', hhigh'⟩ := exists_byte h
    let n := ((b.toNat - 0xe0) * 0x40 + (c.toNat - 0x80)) * 0x40 + (d.toNat - 0x80)
    have hc : 0x80 ≤ c.toNat ∧ c.toNat ≤ 0xbf := by split at hlow <;> split at hhigh <;> omega
    have hn : 0x800 ≤ n ∧ n < 0x10000 ∧ (n < 0xd800 ∨ 0xdfff < n) := by
      split at hlow <;> split at hhigh <;> omega
    refine ⟨Char.ofNat n, rest, ?_⟩
    rw [encodeChar_ofNat (by omega), if_neg (by omega), if_neg (by omega), if_pos hn.2.1,
      byte_eq (b := b) (by omega), byte_eq (b := c) (by omega), byte_eq (b := d) (by omega)]
    rfl
  · rw [scan_start (start_four (by omega) (by omega)), List.nil_append] at h
    obtain ⟨c, rest, rfl, hlow, hhigh, h⟩ := exists_further h
    obtain ⟨d, rest, rfl, hlow', hhigh', h⟩ := exists_further h
    obtain ⟨e, rest, rfl, hlow'', hhigh''⟩ := exists_byte h
    let n := (((b.toNat - 0xf0) * 0x40 + (c.toNat - 0x80)) * 0x40 + (d.toNat - 0x80)) * 0x40 +
      (e.toNat - 0x80)
    have hc : 0x80 ≤ c.toNat ∧ c.toNat ≤ 0xbf := by split at hlow <;> split at hhigh <;> omega
    have hn : 0x10000 ≤ n ∧ n < 0x110000 := by
      split at hlow <;> split at hhigh <;> omega
    refine ⟨Char.ofNat n, rest, ?_⟩
    rw [encodeChar_ofNat (by omega), if_neg (by omega), if_neg (by omega), if_neg (by omega),
      byte_eq (b := b) (by omega), byte_eq (b := c) (by omega), byte_eq (b := d) (by omega),
      byte_eq (b := e) (by omega)]
    rfl

theorem scan_encode (cs : List Char) : scan .between (encode cs) = cs.map some := by
  induction cs with
  | nil => rfl
  | cons c cs ih =>
      rw [encode, List.flatMap_cons, scan_encodeChar, List.map_cons]
      exact congrArg _ ih

theorem encodeChar_ne_nil (c : Char) : encodeChar c ≠ [] := by
  unfold encodeChar
  simp only
  split_ifs <;> simp

theorem exists_encode : ∀ bs : List UInt8, none ∉ scan .between bs → ∃ cs, encode cs = bs
  | [], _ => ⟨[], rfl⟩
  | b :: bs, h => by
      obtain ⟨c, rest, hsplit⟩ := exists_char h
      rw [hsplit, scan_encodeChar, List.mem_cons, not_or] at h
      have hshorter : rest.length < bs.length + 1 := by
        have hlength := congrArg List.length hsplit
        have hpos := List.length_pos_of_ne_nil (encodeChar_ne_nil c)
        simp only [List.length_cons, List.length_append] at hlength
        omega
      obtain ⟨cs, hcs⟩ := exists_encode rest h.2
      exact ⟨c :: cs, by rw [hsplit, ← hcs, encode, encode, List.flatMap_cons]⟩
termination_by bs => bs.length

theorem mapM_id_eq_some_iff {α : Type} {xs : List (Option α)} {ys : List α} :
    xs.mapM id = some ys ↔ xs = ys.map some := by
  induction xs generalizing ys with
  | nil => cases ys <;> simp
  | cons x xs ih =>
      rw [List.mapM_cons, Option.bind_eq_bind, Option.bind_eq_some_iff]
      simp only [Option.bind_eq_bind, Option.bind_eq_some_iff, ih]
      cases x with
      | none => cases ys <;> simp
      | some x => cases ys <;> simp [and_comm]

/-- Decoding and encoding are each other's inverse on the bytes that are well formed. -/
theorem decode?_eq_some_iff {bs : List UInt8} {cs : List Char} :
    decode? bs = some cs ↔ encode cs = bs := by
  rw [decode?, mapM_id_eq_some_iff]
  constructor
  · intro h
    obtain ⟨ds, hds⟩ := exists_encode bs (by simp [h])
    rw [← hds, scan_encode] at h
    rw [← hds, List.map_inj_right (fun _ _ => Option.some.inj) |>.mp h]
  · rintro rfl
    exact scan_encode cs

end Utf8

namespace Payload

theorem bytes_ofBytes (bs : List UInt8) : (ofBytes bs).bytes = bs := by
  unfold ofBytes
  split
  · rename_i cs hcs
    rw [bytes, String.toList_ofList]
    exact Utf8.decode?_eq_some_iff.mp hcs
  · rfl

theorem isText_ofBytes_iff {bs : List UInt8} :
    (ofBytes bs).isText = true ↔ ∃ cs, Utf8.encode cs = bs := by
  unfold ofBytes
  simp only [← Utf8.decode?_eq_some_iff]
  split
  · rename_i cs hcs
    simp [isText, hcs]
  · rename_i hnone
    simp [isText, hnone]

theorem ofBytes_text (s : String) : ofBytes (text s).bytes = text s := by
  have hdecode : Utf8.decode? (text s).bytes = some s.toList :=
    Utf8.decode?_eq_some_iff.mpr rfl
  rw [ofBytes, hdecode]
  exact congrArg text String.ofList_toList

end Payload

end Bakehouse
