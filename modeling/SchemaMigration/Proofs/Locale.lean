import SchemaMigration.Locale
import Mathlib.Data.List.Basic
import Mathlib.Data.Set.Function

/-!
# Localized handles are cut in one way

* `splitLocalized?_eq_some_iff`: a handle is cut into a base and a code iff it is the base localized
  for the code, the base is a handle and the code a locale code.
* `localize_inj`: whatever the bases are, one localized handle stands for one base and one code.
* **`localize_bijOn`**: localizing is a bijection from the bases and codes onto the handles that can
  be cut, and cutting undoes it.

About `localize` and `split_localized`.
-/

namespace SchemaMigration.Locale

/-- The characters make up a base handle. -/
def IsHandle (s : List Char) : Prop :=
  s ≠ [] ∧ ∀ c ∈ s, isHandleChar c = true

/-- No character of a locale code is an underscore. -/
theorem underscore_not_mem {code : List Char} (h : isCode code = true) : '_' ∉ code := by
  have small : ∀ c, isSmall c = true → '_' ≠ c := by
    rintro c hc rfl
    exact absurd hc (by decide)
  have capital : ∀ c, isCapital c = true → '_' ≠ c := by
    rintro c hc rfl
    exact absurd hc (by decide)
  unfold isCode at h
  split at h
  · simp only [Bool.and_eq_true] at h
    simp [small _ h.1, small _ h.2]
  · simp only [Bool.and_eq_true] at h
    obtain ⟨⟨⟨ha, hb⟩, hc⟩, hd⟩ := h
    simp [small _ ha, small _ hb, capital _ hc, capital _ hd]
  · cases h

/-- What is cut is the base, the separator and the code. -/
theorem splitChars?_ok : ∀ {s base code : List Char}, splitChars? s = some (base, code) →
    s = base ++ '_' :: '_' :: code ∧ IsHandle base ∧ isCode code = true
  | [], _, _, h => by simp [splitChars?] at h
  | c :: r, base, code, h => by
    -- the base is longer than one character: the cut is one of the rest
    have longer : isHandleChar c = true →
        (splitChars? r).map (fun cut => (c :: cut.1, cut.2)) = some (base, code) →
        c :: r = base ++ '_' :: '_' :: code ∧ IsHandle base ∧ isCode code = true := by
      intro hc hr
      obtain ⟨⟨b, code'⟩, hcut, e⟩ := Option.map_eq_some_iff.mp hr
      cases e
      obtain ⟨rfl, hb, hcode⟩ := splitChars?_ok hcut
      refine ⟨rfl, ⟨by simp, ?_⟩, hcode⟩
      simpa [hc] using hb.2
    unfold splitChars? at h
    split at h
    · rename_i hc
      split at h
      · rename_i t
        split at h
        · rename_i ht
          cases h
          exact ⟨rfl, ⟨by simp, by simpa using hc⟩, ht⟩
        · exact longer hc h
      · exact longer hc h
    · cases h

/-- A base and a code put together are cut again, however the base ends. -/
theorem splitChars?_append {code : List Char} (hcode : isCode code = true) :
    ∀ {base : List Char}, IsHandle base →
      splitChars? (base ++ '_' :: '_' :: code) = some (base, code)
  | [], h => absurd rfl h.1
  | [c], h => by
    have hc : isHandleChar c = true := h.2 c (by simp)
    simp [splitChars?, hc, hcode]
  | c :: d :: r, h => by
    have hc : isHandleChar c = true := h.2 c (by simp)
    have hrest : IsHandle (d :: r) := ⟨by simp, fun x hx => h.2 x (List.mem_cons_of_mem c hx)⟩
    have ih := splitChars?_append hcode hrest
    -- what follows a separator at this place holds another one, so it is no code
    have hno : ∀ t, (d :: r) ++ '_' :: '_' :: code = '_' :: '_' :: t → isCode t = false := by
      intro t ht
      by_contra hcon
      have hmem : '_' ∈ t := by
        cases r with
        | nil =>
          simp only [List.cons_append, List.nil_append, List.cons.injEq] at ht
          rw [← ht.2.2]
          exact List.mem_cons_self
        | cons e r =>
          simp only [List.cons_append, List.cons.injEq] at ht
          rw [← ht.2.2]
          simp
      exact underscore_not_mem (by simpa using hcon) hmem
    show splitChars? (c :: ((d :: r) ++ '_' :: '_' :: code)) = _
    unfold splitChars?
    rw [if_pos hc]
    split
    · rename_i t ht
      rw [if_neg (by simpa using hno t ht), ih]
      rfl
    · rw [ih]
      rfl

theorem toList_localize (handle code : String) :
    (localize handle code).toList = handle.toList ++ '_' :: '_' :: code.toList := by
  simp [localize, separator]

/-- **A handle is cut into a base and a code iff it is made of them.** -/
theorem splitLocalized?_eq_some_iff {handle base code : String} :
    splitLocalized? handle = some (base, code) ↔
      handle = localize base code ∧ IsHandle base.toList ∧ isValid code = true := by
  constructor
  · intro h
    obtain ⟨⟨b, l⟩, hcut, e⟩ := Option.map_eq_some_iff.mp h
    obtain ⟨hs, hb, hl⟩ := splitChars?_ok hcut
    cases e
    refine ⟨?_, by simpa using hb, by simpa [isValid] using hl⟩
    rw [← String.toList_inj, toList_localize, hs]
    simp
  · rintro ⟨rfl, hb, hl⟩
    unfold splitLocalized?
    rw [toList_localize, splitChars?_append hl hb]
    simp

/-- What stands after the last underscore is the code. -/
theorem append_code_inj {b b' c c' : List Char} (hc : '_' ∉ c) (hc' : '_' ∉ c')
    (h : b ++ '_' :: c = b' ++ '_' :: c') : b = b' ∧ c = c' := by
  rcases List.append_eq_append_iff.mp h with ⟨m, hb, hm⟩ | ⟨m, hb, hm⟩
  · cases m with
    | nil => simp_all
    | cons x m =>
      simp only [List.cons_append, List.cons.injEq] at hm
      exact absurd (hm.2 ▸ by simp) hc
  · cases m with
    | nil => simp_all
    | cons x m =>
      simp only [List.cons_append, List.cons.injEq] at hm
      exact absurd (hm.2 ▸ by simp) hc'

/-- One localized handle stands for one base and one code. -/
theorem localize_inj {handle handle' code code' : String} (hc : isValid code = true)
    (hc' : isValid code' = true) :
    localize handle code = localize handle' code' ↔ handle = handle' ∧ code = code' := by
  constructor
  · intro h
    rw [← String.toList_inj, toList_localize, toList_localize, ← List.singleton_append,
      ← List.singleton_append (l := '_' :: code'.toList), ← List.append_assoc,
      ← List.append_assoc] at h
    obtain ⟨hb, hcode⟩ := append_code_inj (underscore_not_mem hc) (underscore_not_mem hc') h
    exact ⟨String.toList_inj.mp (List.append_cancel_right hb), String.toList_inj.mp hcode⟩
  · rintro ⟨rfl, rfl⟩
    rfl

theorem check_eq_ok_iff {code : String} : check code = .ok () ↔ isValid code = true := by
  unfold check
  split <;> simp_all

/-- **Localizing is a bijection onto its image.** Every base handle, localized for any accepted
code, is cut into the two again. Whatever can be cut is cut into a base handle and an accepted code
that it is made of. So the handles that can be cut are in bijection with the bases and codes. -/
theorem localize_bijOn :
    (∀ handle code, IsHandle handle.toList → check code = .ok () →
      splitLocalized? (localize handle code) = some (handle, code)) ∧
    (∀ s base code, splitLocalized? s = some (base, code) →
      IsHandle base.toList ∧ check code = .ok () ∧ localize base code = s) ∧
    Set.BijOn (fun cut : String × String => localize cut.1 cut.2)
      {cut | IsHandle cut.1.toList ∧ check cut.2 = .ok ()} {s | (splitLocalized? s).isSome} := by
  have hsplit : ∀ handle code, IsHandle handle.toList → check code = .ok () →
      splitLocalized? (localize handle code) = some (handle, code) := fun handle code hh hc =>
    splitLocalized?_eq_some_iff.mpr ⟨rfl, hh, check_eq_ok_iff.mp hc⟩
  have hmade : ∀ s base code, splitLocalized? s = some (base, code) →
      IsHandle base.toList ∧ check code = .ok () ∧ localize base code = s := fun s base code h => by
    obtain ⟨hs, hbase, hcode⟩ := splitLocalized?_eq_some_iff.mp h
    exact ⟨hbase, check_eq_ok_iff.mpr hcode, hs.symm⟩
  refine ⟨hsplit, hmade, ?_, ?_, ?_⟩
  · rintro ⟨handle, code⟩ ⟨hh, hc⟩
    exact Option.isSome_of_eq_some (hsplit handle code hh hc)
  · rintro ⟨handle, code⟩ ⟨-, hc⟩ ⟨handle', code'⟩ ⟨-, hc'⟩ h
    obtain ⟨rfl, rfl⟩ := (localize_inj (check_eq_ok_iff.mp hc) (check_eq_ok_iff.mp hc')).mp h
    rfl
  · intro s hs
    obtain ⟨⟨base, code⟩, hcut⟩ := Option.isSome_iff_exists.mp hs
    obtain ⟨hbase, hcode, rfl⟩ := hmade s base code hcut
    exact ⟨(base, code), ⟨hbase, hcode⟩, rfl⟩

/-- A base that holds the separator, and ends with its character, is not cut short. -/
theorem localize_bijOn_of_titles :
    splitLocalized? "meta__title___pt-BR" = some ("meta__title_", "pt-BR") ∧
      localize "meta__title_" "pt-BR" = "meta__title___pt-BR" := by
  have hbase : IsHandle "meta__title_".toList := ⟨by decide, List.all_eq_true.mp rfl⟩
  have hsplit := localize_bijOn.1 "meta__title_" "pt-BR" hbase rfl
  exact ⟨hsplit, (localize_bijOn.2.1 _ _ _ hsplit).2.2⟩

end SchemaMigration.Locale
