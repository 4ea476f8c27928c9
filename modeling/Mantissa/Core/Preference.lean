import Mathlib

/-!
# An order with exceptions

A comparison goes by a key, except that some pairs have a preference which overrides the key. Both
parts can be sensible and the whole can still run in circles: a preference says something about two
elements and nothing about a third one between them.

`Beats key prefers` is such a comparison. On two elements it never contradicts itself. Whether it
is transitive on a set is decided by the triples `x`, `y`, `z` in the order of the key alone
(`beats_trans_iff`): preferences for older elements have to chain, and a preference for `x` over `z`
must not skip `y`.
-/

namespace Mantissa

variable {α K : Type*} [LinearOrder K] {key : α → K} {prefers : α → α → Prop}
  {s : Set α} {x y z : α}

/-- `x` is preferred over `y`, or it has the greater key and `y` is not preferred over it. -/
def Beats (key : α → K) (prefers : α → α → Prop) (x y : α) : Prop :=
  prefers x y ∨ ¬ prefers y x ∧ key y < key x

/-- Preferences for the older element chain, and none skips an element in between. -/
def PreferencesChain (key : α → K) (prefers : α → α → Prop) (s : Set α) : Prop :=
  ∀ x ∈ s, ∀ y ∈ s, ∀ z ∈ s, key x < key y → key y < key z →
    (prefers x y → prefers y z → prefers x z) ∧ (prefers x z → prefers x y ∨ prefers y z)

/-- The older of two elements beats the newer one by a preference only. -/
lemma beats_newer_iff (h : key x < key y) : Beats key prefers x y ↔ prefers x y := by
  refine ⟨?_, .inl⟩
  rintro (hprefers | ⟨-, hlt⟩)
  · exact hprefers
  · exact absurd hlt h.asymm

section Asymmetric

variable (hasymm : ∀ x y, prefers x y → ¬ prefers y x)
include hasymm

lemma beats_asymm (h : Beats key prefers x y) : ¬ Beats key prefers y x := by
  rintro (hyx | ⟨hxy, hlt⟩)
  · rcases h with hxy | ⟨hnot, -⟩
    · exact hasymm x y hxy hyx
    · exact hnot hyx
  · rcases h with hxy' | ⟨-, hlt'⟩
    · exact hxy hxy'
    · exact lt_asymm hlt hlt'

/-- The newer of two elements beats the older one unless there is a preference. -/
lemma beats_older_iff (h : key x < key y) : Beats key prefers y x ↔ ¬ prefers x y := by
  constructor
  · intro hbeats hprefers
    exact beats_asymm hasymm hbeats (.inl hprefers)
  · intro hnot
    exact .inr ⟨hnot, h⟩

lemma beats_total (hinj : Function.Injective key) (hne : x ≠ y) :
    Beats key prefers x y ∨ Beats key prefers y x := by
  rcases lt_trichotomy (key x) (key y) with hlt | heq | hlt
  · rw [beats_newer_iff hlt, beats_older_iff hasymm hlt]
    exact em _
  · exact absurd (hinj heq) hne
  · rw [beats_older_iff hasymm hlt, beats_newer_iff hlt]
    exact (em _).symm

/-- A circle of three, entered at its oldest element. -/
private lemma no_circle_from (hchain : PreferencesChain key prefers s) (hx : x ∈ s) (hy : y ∈ s)
    (hz : z ∈ s) (hxy : Beats key prefers x y) (hyz : Beats key prefers y z)
    (hzx : Beats key prefers z x) (hlt : key x < key y) (hlt' : key x < key z)
    (hne : key y ≠ key z) :
    False := by
  rw [beats_newer_iff hlt] at hxy
  rw [beats_older_iff hasymm hlt'] at hzx
  rcases hne.lt_or_gt with hyz' | hzy
  · rw [beats_newer_iff hyz'] at hyz
    exact hzx ((hchain x hx y hy z hz hlt hyz').1 hxy hyz)
  · rw [beats_older_iff hasymm hzy] at hyz
    rcases (hchain x hx z hz y hy hlt' hzy).2 hxy with hxz | hzy'
    · exact hzx hxz
    · exact hyz hzy'

/-- **When the comparison is transitive.** -/
theorem beats_trans_iff (hinj : Function.Injective key) :
    (∀ x ∈ s, ∀ y ∈ s, ∀ z ∈ s, Beats key prefers x y → Beats key prefers y z →
      Beats key prefers x z) ↔ PreferencesChain key prefers s := by
  constructor
  · intro htrans x hx y hy z hz hxy hyz
    have hxz := hxy.trans hyz
    constructor
    · intro hprefers hprefers'
      exact (beats_newer_iff hxz).mp (htrans x hx y hy z hz (.inl hprefers) (.inl hprefers'))
    · intro hprefers
      by_contra hnot
      rw [not_or, ← beats_older_iff hasymm hxy, ← beats_older_iff hasymm hyz] at hnot
      have hzx := htrans z hz y hy x hx hnot.2 hnot.1
      exact (beats_older_iff hasymm hxz).mp hzx hprefers
  · intro hchain x hx y hy z hz hxy hyz
    by_contra hnot
    have hne : ∀ {a b : α}, Beats key prefers a b → key a ≠ key b := by
      intro a b hab heq
      rw [hinj heq] at hab
      exact beats_asymm hasymm hab hab
    have hxz : x ≠ z := by
      rintro rfl
      exact beats_asymm hasymm hxy hyz
    have hzx := (beats_total hasymm hinj hxz).resolve_left hnot
    -- Whichever element of the circle is the oldest, the circle can be entered there.
    rcases (hne hxy).lt_or_gt with h1 | h1
    · rcases (hne hzx).lt_or_gt with h2 | h2
      · exact no_circle_from hasymm hchain hz hx hy hzx hxy hyz h2 (h2.trans h1) (hne hxy)
      · exact no_circle_from hasymm hchain hx hy hz hxy hyz hzx h1 h2 (hne hyz)
    · rcases (hne hyz).lt_or_gt with h2 | h2
      · exact no_circle_from hasymm hchain hy hz hx hyz hzx hxy h2 h1 (hne hzx)
      · exact no_circle_from hasymm hchain hz hx hy hzx hxy hyz (h2.trans h1) h2 (hne hxy)

end Asymmetric

end Mantissa
