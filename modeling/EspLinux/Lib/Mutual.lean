import Mathlib

/-!
# Links with two ends

The objects of a table have addresses and name partners, and a partner holds the address of one
object, or none.  The links are mutual if a partner that is named is there and holds the address of
the object that names it, and an address that is held is that of an object that names the holder.

Whoever makes a link, or takes one away at both ends, keeps that.  Whoever replaces an object keeps
it exactly if neither the old object nor the new one names anybody (`Mutual.replace_iff`): the
partner of the old one is left with an address that nobody has, and the partner of the new one has
never heard of it.
-/

namespace EspLinux.Lib

variable {ι κ α ρ : Type*} {addr : ρ → α} {names : ρ → κ → Prop}

/-- Objects `f` and partners `g` point at each other. -/
structure Mutual (addr : ρ → α) (names : ρ → κ → Prop) (f : ι → Option ρ)
    (g : κ → Option (Option α)) : Prop where
  forth : ∀ i r c, f i = some r → names r c → g c = some (some (addr r))
  back : ∀ c a, g c = some (some a) → ∃ i r, f i = some r ∧ addr r = a ∧ names r c

namespace Mutual

variable {f : ι → Option ρ} {g : κ → Option (Option α)} {i : ι} {c : κ} {r r' : ρ} {o : Option ρ}

/-- An object with an address that nobody else has is not named by chance. -/
lemma not_names_of_fresh (h : Mutual addr names f g)
    (hfresh : ∀ j r, f j = some r → addr r ≠ addr r') : g c ≠ some (some (addr r')) := by
  intro hc
  obtain ⟨j, r, hj, haddr, -⟩ := h.back c _ hc
  exact hfresh j r hj haddr

/-- Partners that hold nothing come and go. -/
lemma of_held {g' : κ → Option (Option α)} (h : Mutual addr names f g)
    (hg : ∀ c a, g' c = some (some a) ↔ g c = some (some a)) : Mutual addr names f g' := by
  constructor
  · intro i r c hi hc
    exact (hg c _).mpr (h.forth i r c hi hc)
  · intro c a hc
    exact h.back c a ((hg c a).mp hc)

/-- The object at `i` is replaced, or goes, or comes.  Its address is its own, and that of the new
one is new. -/
theorem replace_iff [DecidableEq ι] (h : Mutual addr names f g)
    (hown : ∀ j i r' r, f j = some r' → f i = some r → addr r' = addr r → j = i)
    (hfresh : ∀ r', o = some r' → ∀ j r, f j = some r → addr r ≠ addr r') :
    Mutual addr names (Function.update f i o) g ↔
      (∀ r, f i = some r → ∀ c, ¬ names r c) ∧ ∀ r', o = some r' → ∀ c, ¬ names r' c := by
  constructor
  · intro h'
    constructor
    · -- the partner of the old object holds an address that nobody has
      intro r hr c hc
      obtain ⟨j, r', hj, haddr, -⟩ := h'.back c _ (h.forth i r c hr hc)
      by_cases hji : j = i
      · rw [hji, Function.update_self] at hj
        exact hfresh r' hj i r hr haddr.symm
      · rw [Function.update_of_ne hji] at hj
        exact hji (hown j i r' r hj hr haddr)
    · -- the partner of the new object holds another address
      intro r' hr' c hc
      have hg := h'.forth i r' c (by rw [Function.update_self, hr']) hc
      exact h.not_names_of_fresh (hfresh r' hr') hg
  · rintro ⟨hold, hnew⟩
    constructor
    · intro j r c hj hc
      by_cases hji : j = i
      · rw [hji, Function.update_self] at hj
        exact absurd hc (hnew r hj c)
      · rw [Function.update_of_ne hji] at hj
        exact h.forth j r c hj hc
    · intro c a hc
      obtain ⟨j, r, hj, haddr, hnames⟩ := h.back c a hc
      have hji : j ≠ i := by
        rintro rfl
        exact hold r hj c hnames
      exact ⟨j, r, by rw [Function.update_of_ne hji, hj], haddr, hnames⟩

/-- An object that names nobody and a partner that holds nothing are linked. -/
theorem link [DecidableEq ι] [DecidableEq κ] (h : Mutual addr names f g) (hi : f i = some r)
    (hg : g c = some none) (haddr : addr r' = addr r) (hnobody : ∀ c, ¬ names r c)
    (hnames : ∀ d, names r' d ↔ d = c) :
    Mutual addr names (Function.update f i (some r'))
      (Function.update g c (some (some (addr r)))) := by
  constructor
  · intro j q d hj hd
    by_cases hji : j = i
    · rw [hji, Function.update_self] at hj
      cases hj
      rw [(hnames d).mp hd, Function.update_self, haddr]
    · rw [Function.update_of_ne hji] at hj
      have hdc : d ≠ c := by
        rintro rfl
        have hheld := h.forth j q d hj hd
        rw [hg] at hheld
        cases hheld
      rw [Function.update_of_ne hdc]
      exact h.forth j q d hj hd
  · intro d a hd
    by_cases hdc : d = c
    · subst hdc
      rw [Function.update_self] at hd
      cases hd
      exact ⟨i, r', Function.update_self .., haddr, (hnames d).mpr rfl⟩
    · rw [Function.update_of_ne hdc] at hd
      obtain ⟨j, q, hj, hq, hqd⟩ := h.back d a hd
      have hji : j ≠ i := by
        rintro rfl
        cases hi.symm.trans hj
        exact hnobody d hqd
      exact ⟨j, q, by rw [Function.update_of_ne hji, hj], hq, hqd⟩

/-- A partner that holds the address `a` takes back the link at both ends: it holds nothing, or goes,
and whatever is at the address names nobody. -/
theorem unlink [DecidableEq κ] [DecidableEq α] {a : α} {x : Option (Option α)} {clear : ρ → ρ}
    (h : Mutual addr names f g) (hc : g c = some (some a))
    (hx : ∀ b, x ≠ some (some b)) (hclear : ∀ r d, ¬ names (clear r) d)
    (hown : ∀ j i r' r, f j = some r' → f i = some r → addr r' = addr r → j = i)
    (hone : ∀ i r d e, f i = some r → names r d → names r e → d = e) :
    Mutual addr names (fun i => (f i).map fun r => if addr r = a then clear r else r)
      (Function.update g c x) := by
  constructor
  · intro i r d hi hd
    obtain ⟨q, hq, rfl⟩ := Option.map_eq_some_iff.mp hi
    split at hd
    · exact absurd hd (hclear q d)
    · rename_i haddr
      rw [if_neg haddr]
      have hheld := h.forth i q d hq hd
      have hdc : d ≠ c := by
        rintro rfl
        rw [hc] at hheld
        cases hheld
        exact haddr rfl
      rw [Function.update_of_ne hdc]
      exact hheld
  · intro d b hd
    have hdc : d ≠ c := by
      rintro rfl
      rw [Function.update_self] at hd
      exact hx b hd
    rw [Function.update_of_ne hdc] at hd
    obtain ⟨i, r, hi, haddr, hnames⟩ := h.back d b hd
    have hba : addr r ≠ a := by
      -- the object at the address names the partner that lets go, and nobody else
      intro hra
      obtain ⟨j, q, hj, hq, hqc⟩ := h.back c a hc
      obtain rfl := hown j i q r hj hi (hq.trans hra.symm)
      cases hj.symm.trans hi
      exact hdc (hone j r d c hi hnames hqc)
    exact ⟨i, r, by rw [hi, Option.map_some, if_neg hba], haddr, hnames⟩

end Mutual

end EspLinux.Lib
