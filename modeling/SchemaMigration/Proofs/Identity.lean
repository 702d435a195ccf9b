import SchemaMigration.Collection
import SchemaMigration.Proofs.Outcome
import Mathlib.Data.List.Basic

/-!
# Identities of collections

The identity of a collection is cut at the first separator, where the namespace ends unless it ends
in an underscore itself. Then the cut comes one character early, and the underscore goes to the
name.

About `identity` and `parse_identity`.

* `splitFirst?_separator`: where a joined text is cut.
* `make_eq_ok_iff`: the parts of a collection make up that collection and no other.
* `identity_of_parseIdentity`: a text names no collection but the one whose identity it is.
* **`CollectionRef.parseIdentity_identity_iff`**: an identity leads back to its collection iff the
  namespace does not end in an underscore, and two collections share an identity iff they differ in
  the part that an underscore next to the separator belongs to.
-/

namespace SchemaMigration

/-! ## Cutting at the separator -/

namespace Text

/-- A text that starts with the mark holds it at the front. -/
theorem splitFirst?_of_front (mark n : List Char) :
    splitFirst? mark (mark ++ n) = some ([], n) := by
  have hfront : mark.isPrefixOf? (mark ++ n) = some n :=
    List.isPrefixOf?_eq_some_iff_append_eq.mpr rfl
  cases h : mark ++ n with
  | nil =>
    rw [h] at hfront
    rw [splitFirst?, hfront]
    rfl
  | cons c r =>
    rw [h] at hfront
    rw [splitFirst?, hfront]

/-- The mark is not at the front, so the text is cut further on. -/
theorem splitFirst?_cons_of_not_front {mark r : List Char} {c : Char}
    (h : ¬ mark <+: c :: r) :
    splitFirst? mark (c :: r) = (splitFirst? mark r).map fun cut => (c :: cut.1, cut.2) := by
  have hnone : mark.isPrefixOf? (c :: r) = none := by
    cases hfront : mark.isPrefixOf? (c :: r) with
    | none => rfl
    | some after => exact absurd ⟨after, List.isPrefixOf?_eq_some_iff_append_eq.mp hfront⟩ h
  rw [splitFirst?, hnone]

theorem occurs_of_front {mark r : List Char} {c : Char} (h : mark <+: c :: r) :
    occurs mark (c :: r) = true := by
  obtain ⟨n, hn⟩ := h
  rw [← hn, occurs, splitFirst?_of_front]
  rfl

/-- **A joined text is cut where the separator was put**, unless the front part ends in an
underscore: then it is cut before that underscore. -/
theorem splitFirst?_separator (n : List Char) : ∀ {s : List Char},
    occurs ['_', '_'] s = false → splitFirst? ['_', '_'] (s ++ '_' :: '_' :: n) =
      some (if s.getLast? = some '_' then (s.dropLast, '_' :: n) else (s, n))
  | [], _ => splitFirst?_of_front ['_', '_'] n
  | [c], _ => by
    by_cases hc : c = '_'
    · subst hc
      exact splitFirst?_of_front ['_', '_'] ('_' :: n)
    · have hfront : ¬ ['_', '_'] <+: c :: '_' :: '_' :: n := by simp [Ne.symm hc]
      have hrest : splitFirst? ['_', '_'] ('_' :: '_' :: n) = some ([], n) :=
        splitFirst?_of_front ['_', '_'] n
      show splitFirst? ['_', '_'] (c :: '_' :: '_' :: n) = _
      rw [splitFirst?_cons_of_not_front hfront, hrest]
      simp [hc]
  | c :: d :: r, h => by
    have hfront : ¬ ['_', '_'] <+: c :: d :: r := fun hfront => by
      rw [occurs_of_front hfront] at h
      cases h
    have hrest : occurs ['_', '_'] (d :: r) = false := by
      rw [occurs, splitFirst?_cons_of_not_front hfront, Option.isSome_map] at h
      exact h
    have hfront' : ¬ ['_', '_'] <+: c :: (d :: r ++ '_' :: '_' :: n) := by
      simpa using hfront
    show splitFirst? ['_', '_'] (c :: (d :: r ++ '_' :: '_' :: n)) = _
    rw [splitFirst?_cons_of_not_front hfront', splitFirst?_separator n hrest,
      List.getLast?_cons_cons, List.dropLast_cons_cons]
    split <;> rfl

/-- A text that is cut is made of both parts with the mark between them. -/
theorem append_of_splitFirst? {mark before after : List Char} : ∀ {s : List Char},
    splitFirst? mark s = some (before, after) → s = before ++ mark ++ after
  | [], h => by
    obtain ⟨rest, hrest, hcut⟩ := Option.map_eq_some_iff.mp h
    cases hcut
    exact (List.isPrefixOf?_eq_some_iff_append_eq.mp hrest).symm
  | c :: r, h => by
    rw [splitFirst?] at h
    split at h
    · rename_i rest hrest
      cases h
      exact (List.isPrefixOf?_eq_some_iff_append_eq.mp hrest).symm
    · obtain ⟨cut, hcut, h⟩ := Option.map_eq_some_iff.mp h
      cases h
      rw [append_of_splitFirst? hcut, List.cons_append, List.cons_append]

end Text

/-! ## Collections and their parts -/

theorem occurs_of_partMisuse? {part : String} (h : partMisuse? part = none) :
    Text.occurs ['_', '_'] part.toList = false := by
  unfold partMisuse? at h
  cases hpart : Identifier.misuse? part with
  | some m => simp [hpart] at h
  | none =>
    simp only [hpart, ite_eq_right_iff, reduceCtorEq, imp_false, Bool.not_eq_true] at h
    exact h

namespace CollectionRef

theorem ext_parts {c d : CollectionRef} (hs : c.scope = d.scope) (hn : c.name = d.name) :
    c = d := by
  cases c
  cases d
  cases hs
  cases hn
  rfl

theorem named_eq_ok_iff {name : String} {c : CollectionRef} :
    named name = .ok c ↔ c.scope = none ∧ c.name = name := by
  constructor
  · intro h
    unfold named at h
    split at h
    · cases h
    · cases h
      exact ⟨rfl, rfl⟩
  · rintro ⟨hs, rfl⟩
    unfold named
    split
    · rename_i m hm
      rw [c.name_valid] at hm
      cases hm
    · exact congrArg Except.ok (ext_parts hs.symm rfl)

theorem within_eq_ok_iff {scope : String} {c d : CollectionRef} :
    d.within scope = .ok c ↔ c.scope = some scope ∧ c.name = d.name := by
  constructor
  · intro h
    unfold within at h
    split at h
    · cases h
    · cases h
      exact ⟨rfl, rfl⟩
  · rintro ⟨hs, hn⟩
    unfold within
    split
    · rename_i m hm
      rw [c.scope_valid scope hs] at hm
      cases hm
    · exact congrArg Except.ok (ext_parts hs.symm hn.symm)

/-- The parts of a collection make up that collection. -/
theorem make_eq_ok_iff {scope : Option String} {name : String} {c : CollectionRef} :
    make scope name = .ok c ↔ c.scope = scope ∧ c.name = name := by
  rw [make, bind_eq_ok_iff]
  cases scope with
  | none =>
    constructor
    · rintro ⟨d, hd, h⟩
      cases h
      exact named_eq_ok_iff.mp hd
    · exact fun h => ⟨c, named_eq_ok_iff.mpr h, rfl⟩
  | some scope =>
    constructor
    · rintro ⟨d, hd, h⟩
      obtain ⟨hs, hn⟩ := within_eq_ok_iff.mp h
      exact ⟨hs, hn.trans (named_eq_ok_iff.mp hd).2⟩
    · rintro ⟨hs, hn⟩
      have hnamed : named name = .ok ⟨none, c.name, by simp, c.name_valid⟩ :=
        named_eq_ok_iff.mpr ⟨rfl, hn⟩
      exact ⟨_, hnamed, within_eq_ok_iff.mpr ⟨hs, rfl⟩⟩

/-! ## Identities -/

/-- The namespace ends in an underscore. -/
def EndsOpen (c : CollectionRef) : Prop :=
  ∃ s, c.scope = some (s ++ "_")

/-- The second collection is the first one with the underscore at the end of its namespace moved to
the front of its name. -/
def Shifts (c d : CollectionRef) : Prop :=
  ∃ s, c.scope = some (s ++ "_") ∧ d.scope = some s ∧ d.name = "_" ++ c.name

/-- Namespace and name as they are cut from the identity. -/
def readParts (c : CollectionRef) : Option String × String :=
  match c.scope with
  | some s =>
    if s.toList.getLast? = some '_' then (some (String.ofList s.toList.dropLast), "_" ++ c.name)
    else (some s, c.name)
  | none => (none, c.name)

theorem getLast?_eq_underscore_iff {s : String} :
    s.toList.getLast? = some '_' ↔ ∃ t, s = t ++ "_" := by
  rw [List.getLast?_eq_some_iff]
  constructor
  · rintro ⟨t, ht⟩
    exact ⟨String.ofList t, by rw [← String.toList_inj, ht]; simp⟩
  · rintro ⟨t, rfl⟩
    exact ⟨t.toList, by simp⟩

theorem readParts_of_open {c : CollectionRef} {s : String} (h : c.scope = some (s ++ "_")) :
    c.readParts = (some s, "_" ++ c.name) := by
  simp [readParts, h]

theorem readParts_of_not_open {c : CollectionRef} (h : ¬ c.EndsOpen) :
    c.readParts = (c.scope, c.name) := by
  unfold readParts
  cases hs : c.scope with
  | none => rfl
  | some s =>
    refine if_neg fun hlast => h ?_
    obtain ⟨t, rfl⟩ := getLast?_eq_underscore_iff.mp hlast
    exact ⟨t, hs⟩

/-- A namespace and a name put together. -/
def joined : Option String × String → String
  | (some s, name) => s ++ separator ++ name
  | (none, name) => name

/-- An underscore next to the separator reads the same on either side of it. -/
theorem shift_eq (s name : String) :
    s ++ "_" ++ separator ++ name = s ++ separator ++ ("_" ++ name) := by
  rw [← String.toList_inj]
  simp [separator]

/-- The identity is made of the parts that are read from it. -/
theorem identity_eq_joined (c : CollectionRef) : c.identity = joined c.readParts := by
  by_cases h : c.EndsOpen
  · obtain ⟨s, hs⟩ := h
    rw [readParts_of_open hs, identity, hs]
    exact shift_eq s c.name
  · rw [readParts_of_not_open h, identity]
    cases c.scope <;> rfl

/-- The identity is cut into the parts that are read from it. -/
theorem splitFirst?_identity (c : CollectionRef) :
    Text.splitFirst? separator.toList c.identity.toList =
      c.readParts.1.map fun s => (s.toList, c.readParts.2.toList) := by
  unfold identity readParts
  cases hs : c.scope with
  | none =>
    have hnone := occurs_of_partMisuse? c.name_valid
    rw [Text.occurs, Option.isSome_eq_false_iff, Option.isNone_iff_eq_none] at hnone
    exact hnone
  | some s =>
    have hidentity : (s ++ separator ++ c.name).toList =
        s.toList ++ '_' :: '_' :: c.name.toList := by
      simp [separator]
    have hcut := Text.splitFirst?_separator c.name.toList
      (occurs_of_partMisuse? (c.scope_valid s hs))
    rw [← hidentity] at hcut
    refine Eq.trans hcut ?_
    by_cases hlast : s.toList.getLast? = some '_' <;> simp [hlast]

theorem parseIdentity_identity (c : CollectionRef) :
    parseIdentity c.identity = make c.readParts.1 c.readParts.2 := by
  unfold parseIdentity
  rw [splitFirst?_identity, identity_eq_joined]
  cases c.readParts with
  | mk scope name =>
    cases scope with
    | some s => simp
    | none =>
      show named name = make none name
      rw [make]
      cases named name <;> rfl

/-- A text that names a collection is its identity. -/
theorem identity_of_parseIdentity {identity : String} {c : CollectionRef}
    (h : parseIdentity identity = .ok c) : c.identity = identity := by
  unfold parseIdentity at h
  split at h
  · rename_i scope name hcut
    obtain ⟨hs, hn⟩ := make_eq_ok_iff.mp h
    rw [CollectionRef.identity, hs, hn, ← String.toList_inj, Text.append_of_splitFirst? hcut]
    simp
  · obtain ⟨hs, hn⟩ := named_eq_ok_iff.mp h
    rw [CollectionRef.identity, hs, hn]

/-- Two collections of one identity have the same parts read from it. -/
theorem readParts_eq_of_identity_eq {c d : CollectionRef} (h : c.identity = d.identity) :
    c.readParts = d.readParts := by
  have hcut : c.readParts.1.map (fun s => (s.toList, c.readParts.2.toList)) =
      d.readParts.1.map fun s => (s.toList, d.readParts.2.toList) := by
    rw [← splitFirst?_identity, ← splitFirst?_identity, h]
  have hjoined : joined c.readParts = joined d.readParts := by
    rw [← identity_eq_joined, ← identity_eq_joined, h]
  generalize c.readParts = p at hcut hjoined
  generalize d.readParts = q at hcut hjoined
  obtain ⟨scope, name⟩ := p
  obtain ⟨scope', name'⟩ := q
  cases scope <;> cases scope' <;> simp_all [joined, String.toList_inj]

/-- The parts of a collection are read from its identity iff its namespace does not end in an
underscore. -/
theorem readParts_eq_iff {c : CollectionRef} :
    c.readParts = (c.scope, c.name) ↔ ¬ c.EndsOpen := by
  constructor
  · rintro h ⟨s, hs⟩
    rw [readParts_of_open hs, hs, Prod.mk.injEq, Option.some_inj] at h
    have hlength := congrArg String.length h.1
    simp at hlength
  · exact readParts_of_not_open

theorem Shifts.identity_eq {c d : CollectionRef} (h : c.Shifts d) : c.identity = d.identity := by
  obtain ⟨s, hc, hd, hname⟩ := h
  rw [identity, identity, hc, hd, hname]
  exact shift_eq s c.name

/-- Two collections of which the same parts are read differ by an underscore at most. -/
theorem eq_or_shifts {c d : CollectionRef} (h : c.readParts = d.readParts) :
    c = d ∨ c.Shifts d ∨ d.Shifts c := by
  by_cases hc : c.EndsOpen
  · obtain ⟨s, hs⟩ := hc
    rw [readParts_of_open hs] at h
    by_cases hd : d.EndsOpen
    · obtain ⟨t, ht⟩ := hd
      rw [readParts_of_open ht, Prod.mk.injEq, Option.some_inj] at h
      obtain ⟨rfl, hname⟩ := h
      exact Or.inl (ext_parts (hs.trans ht.symm) ((String.append_right_inj "_").mp hname))
    · rw [readParts_of_not_open hd, Prod.mk.injEq] at h
      exact Or.inr (Or.inl ⟨s, hs, h.1.symm, h.2.symm⟩)
  · rw [readParts_of_not_open hc] at h
    by_cases hd : d.EndsOpen
    · obtain ⟨t, ht⟩ := hd
      rw [readParts_of_open ht, Prod.mk.injEq] at h
      exact Or.inr (Or.inr ⟨t, ht, h⟩)
    · rw [readParts_of_not_open hd, Prod.mk.injEq] at h
      exact Or.inl (ext_parts h.1 h.2)

/-- **An identity leads back to its collection** iff the namespace does not end in an underscore.
Another collection has the same identity iff one of the two is the other one with that underscore at
the front of its name. -/
theorem parseIdentity_identity_iff (c : CollectionRef) :
    (parseIdentity c.identity = .ok c ↔ ¬ c.EndsOpen) ∧
      ∀ d, d ≠ c → (d.identity = c.identity ↔ d.Shifts c ∨ c.Shifts d) := by
  constructor
  · rw [parseIdentity_identity, make_eq_ok_iff, ← readParts_eq_iff, Prod.ext_iff, eq_comm,
      @eq_comm _ c.name]
  · intro d hne
    constructor
    · exact fun h => (eq_or_shifts (readParts_eq_of_identity_eq h)).resolve_left hne
    · rintro (h | h)
      · exact h.identity_eq
      · exact h.identity_eq.symm

end CollectionRef

/-! ## An example -/

namespace Posts

theorem blog_open_valid (s : String) (h : some "blog_" = some s) : partMisuse? s = none := by
  cases h
  rfl

theorem blog_valid (s : String) (h : some "blog" = some s) : partMisuse? s = none := by
  cases h
  rfl

theorem post_valid : partMisuse? "post" = none := rfl

theorem underscored_valid : partMisuse? "_post" = none := rfl

/-- Posts in a namespace that ends in an underscore. -/
def openPosts : CollectionRef := ⟨some "blog_", "post", blog_open_valid, post_valid⟩

/-- Posts whose name starts with an underscore. -/
def shiftedPosts : CollectionRef := ⟨some "blog", "_post", blog_valid, underscored_valid⟩

/-- Posts with an underscore on either side of the separator. -/
def doubledPosts : CollectionRef := ⟨some "blog_", "_post", blog_open_valid, underscored_valid⟩

end Posts

/-- Two collections share an identity, which leads to one of them only; and the identity of a third
one leads nowhere. -/
theorem CollectionRef.identity_of_open_namespace :
    make (some "blog_") "post" = .ok Posts.openPosts ∧
      make (some "blog") "_post" = .ok Posts.shiftedPosts ∧
      Posts.openPosts ≠ Posts.shiftedPosts ∧
      Posts.openPosts.identity = Posts.shiftedPosts.identity ∧
      parseIdentity Posts.openPosts.identity = .ok Posts.shiftedPosts ∧
      make (some "blog_") "_post" = .ok Posts.doubledPosts ∧
      parseIdentity Posts.doubledPosts.identity = .error (.separatorInName "__post") :=
  ⟨rfl, rfl, by decide, rfl, rfl, rfl, rfl⟩

end SchemaMigration
