import Mathlib

/-!
# Components that share a table

Components have entries of a shared table of their own, and a component is good as long as the
table has the right values there.  A step of one component may change its own entries and the
entries that are free, and take over free ones.  If its own component is good afterwards, all are
(`Family.step`): nobody else can tell that anything has happened.
-/

namespace EspLinux.Lib

variable {κ β σ ι : Type*} {free : β → Prop}

/-- A step that changes no used entries but those in `own`, and whose component has `own'`
afterwards, which it had before or were free. -/
structure Frame (free : β → Prop) (f f' : κ → β) (own own' : Set κ) : Prop where
  keeps : ∀ x, x ∉ own → ¬ free (f x) → f' x = f x
  grows : ∀ x ∈ own', x ∈ own ∨ free (f x)

namespace Frame

variable {f f' f'' : κ → β} {own own' own'' : Set κ}

lemma refl : Frame free f f own own := ⟨fun _ _ _ => rfl, fun _ h => .inl h⟩

/-- Giving up entries. -/
lemma mono (h : Frame free f f' own own') (hsub : own'' ⊆ own') : Frame free f f' own own'' :=
  ⟨h.keeps, fun x hx => h.grows x (hsub hx)⟩

lemma trans (h : Frame free f f' own own') (h' : Frame free f' f'' own' own'') :
    Frame free f f'' own own'' := by
  refine ⟨fun x hx hused => ?_, fun x hx => ?_⟩
  · have hx' := h.keeps x hx hused
    have hown' : x ∉ own' := fun hmem => (h.grows x hmem).elim hx hused
    rw [h'.keeps x hown' (hx' ▸ hused), hx']
  · obtain hmem | hfree := h'.grows x hx
    · exact h.grows x hmem
    · by_cases hown : x ∈ own
      · exact .inl hown
      · refine .inr ?_
        by_contra hused
        exact hused (h.keeps x hown hused ▸ hfree)

end Frame

variable {own : σ → Set κ} {good : (κ → β) → σ → Prop} {f f' : κ → β} {c c' : ι → Option σ} {i : ι}

/-- The entries of a component that may not exist. -/
def owned (own : σ → Set κ) (s : Option σ) : Set κ := {x | ∃ t, s = some t ∧ x ∈ own t}

@[simp] lemma owned_none : owned own none = ∅ := by
  ext x
  simp [owned]

@[simp] lemma owned_some {s : σ} : owned own (some s) = own s := by
  ext x
  simp [owned]

/-- Good components, no two of which have an entry in common. -/
structure Family (own : σ → Set κ) (good : (κ → β) → σ → Prop) (f : κ → β) (c : ι → Option σ) :
    Prop where
  good : ∀ i s, c i = some s → good f s
  apart : ∀ i j s t, i ≠ j → c i = some s → c j = some t → Disjoint (own s) (own t)

/-- A step of one component, if whether a component is good depends on its entries only, and the
entries of a good component are in use. -/
theorem Family.step (hlocal : ∀ f f' s, good f s → (∀ x ∈ own s, f' x = f x) → good f' s)
    (hused : ∀ f s, good f s → ∀ x ∈ own s, ¬ free (f x)) (h : Family own good f c)
    (hothers : ∀ j, j ≠ i → c' j = c j)
    (hframe : Frame free f f' (owned own (c i)) (owned own (c' i)))
    (hgood : ∀ s, c' i = some s → good f' s) : Family own good f' c' := by
  -- the entries of another component are used and not among those of this one
  have hother : ∀ j t, j ≠ i → c j = some t → ∀ x ∈ own t, x ∉ owned own (c i) ∧ ¬ free (f x) := by
    refine fun j t hj ht x hx => ⟨?_, hused f t (h.good j t ht) x hx⟩
    rintro ⟨s, hs, hxs⟩
    exact Set.disjoint_left.mp (h.apart i j s t hj.symm hs ht) hxs hx
  have hdisjoint : ∀ j s t, j ≠ i → c' i = some s → c j = some t → Disjoint (own s) (own t) := by
    intro j s t hj hs ht
    refine Set.disjoint_left.mpr fun x hxs hxt => ?_
    obtain ⟨hnot, hfree⟩ := hother j t hj ht x hxt
    exact (hframe.grows x ⟨s, hs, hxs⟩).elim hnot hfree
  refine ⟨fun j s hs => ?_, fun j l s t hjl hs ht => ?_⟩
  · by_cases hj : j = i
    · exact hgood s (hj ▸ hs)
    · rw [hothers j hj] at hs
      refine hlocal f f' s (h.good j s hs) fun x hx => ?_
      obtain ⟨hnot, hfree⟩ := hother j s hj hs x hx
      exact hframe.keeps x hnot hfree
  · by_cases hj : j = i
    · have hl : l ≠ i := fun hl => hjl (hj.trans hl.symm)
      rw [hothers l hl] at ht
      exact hdisjoint l s t hl (hj ▸ hs) ht
    · rw [hothers j hj] at hs
      by_cases hl : l = i
      · exact (hdisjoint j t s hj (hl ▸ ht) hs).symm
      · rw [hothers l hl] at ht
        exact h.apart j l s t hjl hs ht

end EspLinux.Lib
