import Bakehouse.Pattern.Tiling

namespace Bakehouse.Pattern

variable {α : Type} {text : Array α}

/-- What has to match next succeeds at a place that is no earlier, inside the text. -/
def Reaches (text : Array α) (next : Next) (s t : Cursor) : Prop :=
  ∃ u : Cursor, s.place ≤ u.place ∧ u.place ≤ text.size ∧ next u = some t

/-- The body only succeeds by moving forward to what has to match next. -/
def Forward (text : Array α) (body : Body) : Prop :=
  ∀ (s : Cursor) (next : Next) (t : Cursor), s.place ≤ text.size → body s next = some t →
    Reaches text next s t

theorem Reaches.here {next : Next} {s t : Cursor} (hs : s.place ≤ text.size)
    (h : next s = some t) : Reaches text next s t :=
  ⟨s, Nat.le_refl _, hs, h⟩

theorem Reaches.later {next : Next} {s u t : Cursor} (hsu : s.place ≤ u.place)
    (h : Reaches text next u t) : Reaches text next s t := by
  obtain ⟨v, huv, hv, hnext⟩ := h
  exact ⟨v, Nat.le_trans hsu huv, hv, hnext⟩

/-- A body that goes on with something that moves forward itself. -/
theorem Forward.then {body : Body} (hbody : Forward text body) {next rest : Next} {s t : Cursor}
    (hs : s.place ≤ text.size) (h : body s rest = some t)
    (hrest : ∀ u : Cursor, u.place ≤ text.size → rest u = some t → Reaches text next u t) :
    Reaches text next s t := by
  obtain ⟨u, hsu, hu, hrun⟩ := hbody s rest t hs h
  exact (hrest u hu hrun).later hsu

theorem Forward.greedyLoop {body : Body} (hbody : Forward text body) (least : Nat)
    (most : Option Nat) (next : Next) (fuel count : Nat) (last : Option Nat) {s t : Cursor}
    (hs : s.place ≤ text.size)
    (h : Pattern.greedyLoop body least most next fuel count last s = some t) :
    Reaches text next s t := by
  induction fuel generalizing count last s with
  | zero => cases h
  | succ fuel ih =>
      simp only [Pattern.greedyLoop] at h
      split at h
      · exact hbody.then hs h fun u hu hrun => ih _ _ hu hrun
      split at h
      · split at h
        · rename_i hround
          cases h
          exact hbody.then hs hround fun u hu hrun => ih _ _ hu hrun
        · exact .here hs h
      · exact .here hs h

theorem Forward.reluctantLoop {body : Body} (hbody : Forward text body) (least : Nat)
    (most : Option Nat) (next : Next) (fuel count : Nat) (last : Option Nat) {s t : Cursor}
    (hs : s.place ≤ text.size)
    (h : Pattern.reluctantLoop body least most next fuel count last s = some t) :
    Reaches text next s t := by
  induction fuel generalizing count last s with
  | zero => cases h
  | succ fuel ih =>
      simp only [Pattern.reluctantLoop] at h
      split at h
      · exact hbody.then hs h fun u hu hrun => ih _ _ hu hrun
      split at h
      · rename_i hnext
        cases h
        exact .here hs hnext
      split at h
      · exact hbody.then hs h fun u hu hrun => ih _ _ hu hrun
      · cases h

/-- A round that is not given back ends where its body ends. -/
theorem Forward.round {body : Body} (hbody : Forward text body) {s t : Cursor}
    (hs : s.place ≤ text.size) (h : body s some = some t) :
    s.place ≤ t.place ∧ t.place ≤ text.size := by
  obtain ⟨u, hsu, hu, hrun⟩ := hbody s some t hs h
  cases hrun
  exact ⟨hsu, hu⟩

theorem Forward.possessiveLoop {body : Body} (hbody : Forward text body) (least : Nat)
    (most : Option Nat) (next : Next) (fuel count : Nat) (last : Option Nat) {s t : Cursor}
    (hs : s.place ≤ text.size)
    (h : Pattern.possessiveLoop body least most next fuel count last s = some t) :
    Reaches text next s t := by
  induction fuel generalizing count last s with
  | zero => cases h
  | succ fuel ih =>
      simp only [Pattern.possessiveLoop] at h
      split at h
      · split at h
        · rename_i hround
          obtain ⟨hsu, hu⟩ := hbody.round hs hround
          exact (ih _ _ hu h).later hsu
        · cases h
      split at h
      · split at h
        · rename_i hround
          obtain ⟨hsu, hu⟩ := hbody.round hs hround
          exact (ih _ _ hu h).later hsu
        · exact .here hs h
      · exact .here hs h

theorem Forward.loop {body : Body} (hbody : Forward text body) (greed : Greed) (least : Nat)
    (most : Option Nat) : Forward text (greed.run text body least most) := by
  intro s next t hs h
  cases greed with
  | greedy => exact hbody.greedyLoop least most next _ _ _ hs h
  | reluctant => exact hbody.reluctantLoop least most next _ _ _ hs h
  | possessive => exact hbody.possessiveLoop least most next _ _ _ hs h

variable [TextUnit α]

theorem lt_size_of_codeAt? {place code : Nat} (h : codeAt? text place = some code) :
    place < text.size := by
  obtain ⟨c, hc, _⟩ := Option.map_eq_some_iff.mp h
  exact (Array.getElem?_eq_some_iff.mp hc).1

/-- What repeats inside the text ends inside the text. -/
theorem le_of_repeats {mode : Mode} {start place size : Nat} (hplace : place ≤ text.size)
    (h : repeats text mode start place size = true) : place + size ≤ text.size := by
  induction size generalizing start place with
  | zero => exact hplace
  | succ size ih =>
      simp only [repeats] at h
      split at h
      · rename_i hcode
        have hrest := ih (lt_size_of_codeAt? hcode) (Bool.and_eq_true_iff.mp h).2
        omega
      · cases h

/-- A node moves forward, whatever it is made of. Looking around leaves the place alone. -/
theorem Node.forward (text : Array α) (p : Node) : Forward text (p.run text) := by
  induction p with
  | empty => exact fun s next t hs h => .here hs h
  | char test mode =>
      intro s next t hs h
      simp only [run] at h
      split at h
      · rename_i hchar
        split at h
        · have hlt : s.place < text.size := (Array.getElem?_eq_some_iff.mp hchar).1
          exact ⟨{ s with place := s.place + 1 }, Nat.le_succ _, hlt, h⟩
        · cases h
      · cases h
  | anchor kind mode =>
      intro s next t hs h
      simp only [run] at h
      split at h
      · exact .here hs h
      · cases h
  | backref group mode =>
      intro s next t hs h
      simp only [run] at h
      split at h
      · split at h
        · rename_i hrepeats
          exact ⟨_, Nat.le_add_right _ _, le_of_repeats hs hrepeats, h⟩
        · cases h
      · cases h
  | seq p q ihp ihq =>
      exact fun s next t hs h => ihp.then hs h fun u hu hrun => ihq u next t hu hrun
  | alt p q ihp ihq =>
      intro s next t hs h
      simp only [run] at h
      split at h
      · rename_i hfirst
        cases h
        exact ihp s next t hs hfirst
      · exact ihq s next t hs h
  | enclosed p ih => exact fun s next t hs h => ih s next t hs h
  | capture group p ih =>
      intro s next t hs h
      exact ih.then (s := s.mark _) hs h fun u hu hrun => ⟨u.mark _, Nat.le_refl _, hu, hrun⟩
  | atomic p ih =>
      intro s next t hs h
      simp only [run] at h
      split at h
      · rename_i hbody
        obtain ⟨hsu, hu⟩ := ih.round hs hbody
        exact ⟨_, hsu, hu, h⟩
      · cases h
  | loop greed least most p ih => exact ih.loop greed least most
  | ahead negated p ih =>
      intro s next t hs h
      simp only [run] at h
      split at h
      · rename_i u hbody
        split at h
        · cases h
        · exact ⟨{ u with place := s.place }, Nat.le_refl _, hs, h⟩
      · split at h
        · exact .here hs h
        · cases h
  | behind negated least most p ih =>
      intro s next t hs h
      simp only [run] at h
      split at h
      · split at h
        · rename_i u hbody
          split at h
          · cases h
          · exact ⟨{ u with place := s.place }, Nat.le_refl _, hs, h⟩
        · split at h
          · exact .here hs h
          · cases h
      · split at h
        · exact .here hs h
        · cases h
  | condition group yes no ihyes ihno =>
      intro s next t hs h
      simp only [run] at h
      split at h
      · exact ihyes s next t hs h
      · exact ihno s next t hs h

variable {p : Compiled} {m : Match} {start : Nat} {mayBeEmpty : Bool}

theorem Compiled.matchAt?_some (hstart : start ≤ text.size)
    (h : p.matchAt? text mayBeEmpty start = some m) :
    m.start = start ∧ start ≤ m.stop ∧ m.stop ≤ text.size ∧
      (m.stop = start → mayBeEmpty = true) := by
  obtain ⟨t, hrun, rfl⟩ := Option.map_eq_some_iff.mp h
  obtain ⟨u, hsu, hu, hfinal⟩ := p.root.forward text _ _ t hstart hrun
  simp only at hfinal
  split at hfinal
  · cases hfinal
  · rename_i hempty
    cases hfinal
    exact ⟨rfl, hsu, hu, by simpa using hempty⟩

/-- The matches of a scan from a place on: each is the first that starts there or later, the next
one starts where it stops or later, and the last one is not followed by any. An empty match is
refused right where an empty match stopped. -/
inductive Finds (p : Compiled) (text : Array α) : Bool → Nat → List Match → Prop where
  | done {mayBeEmpty : Bool} {place : Nat} (hplace : place ≤ text.size)
      (hnone : ∀ i, place ≤ i → i ≤ text.size →
        p.matchAt? text (mayBeEmpty || i != place) i = none) : Finds p text mayBeEmpty place []
  | step {mayBeEmpty : Bool} {place : Nat} {m : Match} {ms : List Match} (hplace : place ≤ m.start)
      (hstop : m.start ≤ m.stop)
      (hfirst : ∀ i, place ≤ i → i < m.start → p.matchAt? text (mayBeEmpty || i != place) i = none)
      (hmatch : p.matchAt? text (mayBeEmpty || m.start != place) m.start = some m)
      (h : Finds p text (m.start != m.stop) m.stop ms) : Finds p text mayBeEmpty place (m :: ms)

/-- A search gives up only if no place starts a match. -/
theorem Compiled.searchFrom_none {places : Nat}
    (h : p.searchFrom text places mayBeEmpty start = none) (i : Nat) (hi : start ≤ i)
    (hlt : i < start + places) : p.matchAt? text (mayBeEmpty || i != start) i = none := by
  induction places generalizing mayBeEmpty start with
  | zero => omega
  | succ places ih =>
      simp only [searchFrom] at h
      split at h
      · cases h
      · rename_i hnone
        by_cases heq : i = start
        · subst heq
          simpa using hnone
        · have hlater := ih h (by omega) (by omega)
          simpa [bne_iff_ne.mpr heq] using hlater

/-- A search stops at the first place that starts a match. -/
theorem Compiled.searchFrom_some {places : Nat}
    (h : p.searchFrom text places mayBeEmpty start = some m) :
    ∃ i, start ≤ i ∧ i < start + places ∧
      (∀ j, start ≤ j → j < i → p.matchAt? text (mayBeEmpty || j != start) j = none) ∧
      p.matchAt? text (mayBeEmpty || i != start) i = some m := by
  induction places generalizing mayBeEmpty start with
  | zero => cases h
  | succ places ih =>
      simp only [searchFrom] at h
      split at h
      · rename_i hsome
        cases h
        exact ⟨start, Nat.le_refl _, by omega, fun j hj hlt => by omega, by simpa using hsome⟩
      · rename_i hnone
        obtain ⟨i, hi, hlt, hbefore, hmatch⟩ := ih h
        have hne : (i != start) = true := bne_iff_ne.mpr (by omega)
        refine ⟨i, by omega, by omega, fun j hj hji => ?_, by simpa [hne] using hmatch⟩
        by_cases heq : j = start
        · subst heq
          simpa using hnone
        · have hlater := hbefore j (by omega) hji
          simpa [bne_iff_ne.mpr heq] using hlater

/-- Every match either moves on, or is empty and followed by one that is not, so that twice the
characters that are left bound the number of matches. -/
theorem Compiled.finds_matchesFrom {fuel : Nat} (hstart : start ≤ text.size)
    (hfuel : 2 * (text.size - start) + mayBeEmpty.toNat < fuel) :
    Finds p text mayBeEmpty start (p.matchesFrom text fuel mayBeEmpty start) := by
  induction fuel generalizing mayBeEmpty start with
  | zero => omega
  | succ fuel ih =>
      simp only [matchesFrom]
      split
      · rename_i m hm
        obtain ⟨i, hi, hlt, hbefore, hmatch⟩ := searchFrom_some hm
        obtain ⟨hmstart, hle, hstop, hempty⟩ := matchAt?_some (by omega) hmatch
        subst hmstart
        refine .step hi hle hbefore hmatch (ih hstop ?_)
        rcases Nat.lt_or_eq_of_le hle with hlong | hshort
        · have hbit : (m.start != m.stop).toNat ≤ 1 := Bool.toNat_le _
          omega
        · have hmay := hempty hshort.symm
          rw [← hshort, bne_self_eq_false]
          by_cases heq : m.start = start
          · have htrue : mayBeEmpty = true := by simpa [heq] using hmay
            rw [htrue, Bool.toNat_true] at hfuel
            rw [heq, Bool.toNat_false]
            omega
          · simp only [Bool.toNat_false]
            omega
      · rename_i hnone
        exact .done hstart fun i hi hle => searchFrom_none hnone i hi (by omega)

theorem Compiled.finds_matchesIn (p : Compiled) (text : Array α) :
    Finds p text true 0 (p.matchesIn text) :=
  finds_matchesFrom (Nat.zero_le _) (by simp only [Bool.toNat_true]; omega)

end Bakehouse.Pattern
