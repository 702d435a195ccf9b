import Mathlib.Data.List.Nodup

/-!
# Lists with keys

Columns and indexes stand in lists and are told apart by a key: a handle or a name. A member is
added under a free key only, and dropped or replaced under a key that is there only.

* `insert?`, `erase?`, `replace?`: one change, if it can be made; `beyond`: the members of one list
  whose keys another one lacks; `Fresh`: members that can be added.
* `find?_eq_some_iff`: in a list with distinct keys a look-up finds the one member of a key.
* `perm_settled`, `perm_settled_again`: the keys of one list become those of another one.
* `foldlM_insert?`, `foldlM_erase?`, `foldlM_replace?`: a whole series of changes of one kind can be
  made when its keys are distinct, and this is what it leaves.
* `foldlM_component`: a series of changes of one component of a state is a series of changes of that
  component.
-/

namespace SchemaMigration.Keyed

variable {α : Type} (key : α → String)

/-- The list with a further member, if its key is free. -/
def insert? (l : List α) (a : α) : Option (List α) :=
  if key a ∈ l.map key then none else some (l ++ [a])

/-- The list without the members of a key, if it has any. -/
def erase? (l : List α) (k : String) : Option (List α) :=
  if k ∈ l.map key then some (l.filter fun a => key a ≠ k) else none

/-- The list with `a` for every member of the key `k`, if it has any and if the key of `a` is not
taken by another member. -/
def replace? (l : List α) (k : String) (a : α) : Option (List α) :=
  if k ∈ l.map key ∧ (key a = k ∨ key a ∉ l.map key) then
    some (l.map fun b => if key b = k then a else b)
  else none

/-- The members of the first list whose keys the second one lacks. -/
def beyond (l l' : List α) : List α :=
  l.filter fun a => (l'.find? fun b => key b == key a).isNone

/-- The member of `as` with the key of `b`, or else `b` itself. -/
def replacement (as : List α) (b : α) : α :=
  (as.find? fun a => key a == key b).getD b

/-- The members have distinct keys that are free in a list, so that all of them can be added. -/
def Fresh (l as : List α) : Prop :=
  (as.map key).Nodup ∧ ∀ a ∈ as, key a ∉ l.map key

variable {key}

/-! ## Looking up -/

theorem find?_eq_none_iff {l : List α} {k : String} :
    l.find? (fun a => key a == k) = none ↔ k ∉ l.map key := by
  simp [List.find?_eq_none]

theorem find?_eq_some_iff {l : List α} (h : (l.map key).Nodup) {k : String} {a : α} :
    l.find? (fun a => key a == k) = some a ↔ a ∈ l ∧ key a = k := by
  constructor
  · intro hf
    exact ⟨List.mem_of_find?_eq_some hf, by simpa using List.find?_some hf⟩
  · rintro ⟨ha, rfl⟩
    cases hf : l.find? fun b => key b == key a with
    | none => exact absurd (List.mem_map_of_mem ha) (find?_eq_none_iff.mp hf)
    | some b =>
      have hk : key b = key a := by simpa using List.find?_some hf
      rw [List.inj_on_of_nodup_map h (List.mem_of_find?_eq_some hf) ha hk]

/-! ## Missing members -/

theorem beyond_eq_filter (l l' : List α) :
    beyond key l l' = l.filter fun a => key a ∉ l'.map key := by
  refine List.filter_congr fun a _ => ?_
  rw [Bool.eq_iff_iff, Option.isNone_iff_eq_none, find?_eq_none_iff, decide_eq_true_eq]

/-- The members beyond a list depend on its keys alone. -/
theorem beyond_congr_right {l' l'' : List α} (h : l'.map key = l''.map key) (l : List α) :
    beyond key l l' = beyond key l l'' := by
  rw [beyond_eq_filter, beyond_eq_filter, h]

/-- Members that are changed without their keys stay beyond a list. -/
theorem beyond_map {f : α → α} {l : List α} (hf : ∀ a ∈ l, key (f a) = key a) (l' : List α) :
    beyond key (l.map f) l' = (beyond key l l').map f := by
  rw [beyond_eq_filter, beyond_eq_filter, List.filter_map]
  refine congrArg (List.map f) (List.filter_congr fun a ha => ?_)
  rw [Function.comp_apply, hf a ha]

theorem mem_beyond {l l' : List α} {a : α} : a ∈ beyond key l l' ↔ a ∈ l ∧ key a ∉ l'.map key := by
  rw [beyond, List.mem_filter, Option.isNone_iff_eq_none, find?_eq_none_iff]

theorem mem_map_beyond {l l' : List α} {k : String} :
    k ∈ (beyond key l l').map key ↔ k ∈ l.map key ∧ k ∉ l'.map key := by
  constructor
  · intro hk
    obtain ⟨a, ha, rfl⟩ := List.mem_map.mp hk
    exact ⟨List.mem_map_of_mem (mem_beyond.mp ha).1, (mem_beyond.mp ha).2⟩
  · rintro ⟨hk, hk'⟩
    obtain ⟨a, ha, rfl⟩ := List.mem_map.mp hk
    exact List.mem_map_of_mem (mem_beyond.mpr ⟨ha, hk'⟩)

theorem nodup_map_beyond {l : List α} (h : (l.map key).Nodup) (l' : List α) :
    ((beyond key l l').map key).Nodup :=
  h.sublist (List.filter_sublist.map key)

theorem beyond_eq_nil_iff {l l' : List α} :
    beyond key l l' = [] ↔ ∀ k ∈ l.map key, k ∈ l'.map key := by
  constructor
  · intro h k hk
    by_contra hk'
    have := mem_map_beyond.mpr ⟨hk, hk'⟩
    rw [h] at this
    exact List.not_mem_nil this
  · intro h
    refine List.eq_nil_iff_forall_not_mem.mpr fun a ha => ?_
    obtain ⟨ha, hk⟩ := mem_beyond.mp ha
    exact hk (h _ (List.mem_map_of_mem ha))

/-- What is left of the first list without its members beyond the second one has the keys that both
lists have. -/
theorem mem_map_shared {l l' : List α} {k : String} :
    k ∈ (l.filter fun a => key a ∉ (beyond key l l').map key).map key ↔
      k ∈ l.map key ∧ k ∈ l'.map key := by
  simp only [List.mem_map, List.mem_filter, decide_eq_true_eq]
  constructor
  · rintro ⟨a, ⟨ha, hk⟩, rfl⟩
    refine ⟨⟨a, ha, rfl⟩, ?_⟩
    by_contra hk'
    exact hk (List.mem_map.mp (mem_map_beyond.mpr
      ⟨List.mem_map_of_mem ha, fun h => hk' (List.mem_map.mp h)⟩))
  · rintro ⟨⟨a, ha, rfl⟩, hk⟩
    refine ⟨a, ⟨ha, fun h => ?_⟩, rfl⟩
    exact (mem_map_beyond.mp (List.mem_map.mpr h)).2 (List.mem_map.mpr hk)

/-! ## Bringing keys in line -/

theorem mem_settled {l l' : List α} {k : String} :
    k ∈ (l.map key ++ (beyond key l' l).map key).filter (fun k => k ∉ (beyond key l l').map key) ↔
      k ∈ l'.map key := by
  rw [List.mem_filter, List.mem_append, decide_eq_true_eq, mem_map_beyond, mem_map_beyond]
  tauto

/-- The keys of `l`, with those that only `l'` has and without those that only `l` has, are the keys
of `l'`. -/
theorem perm_settled {l l' : List α} (h : (l.map key).Nodup) (h' : (l'.map key).Nodup) :
    ((l.map key ++ (beyond key l' l).map key).filter
      fun k => k ∉ (beyond key l l').map key).Perm (l'.map key) := by
  have hnodup : (l.map key ++ (beyond key l' l).map key).Nodup :=
    h.append (nodup_map_beyond h' l) fun k hk hk' => (mem_map_beyond.mp hk').2 hk
  exact (List.perm_ext_iff_of_nodup (hnodup.filter _) h').mpr fun k => mem_settled

/-- The same holds if some keys of both lists are taken away and put back. -/
theorem perm_settled_again {l l' : List α} {again : List String} (h : (l.map key).Nodup)
    (h' : (l'.map key).Nodup) (ha : again.Nodup)
    (hmem : ∀ k ∈ again, k ∈ l.map key ∧ k ∈ l'.map key) :
    ((l.map key).filter (fun k => k ∉ (beyond key l l').map key ++ again) ++
      ((beyond key l' l).map key ++ again)).Perm (l'.map key) := by
  have hadded : ((beyond key l' l).map key ++ again).Nodup :=
    (nodup_map_beyond h' l).append ha fun k hk hk' => (mem_map_beyond.mp hk).2 (hmem k hk').1
  have hnodup := (h.filter fun k => k ∉ (beyond key l l').map key ++ again).append hadded
    fun k hk hk' => by
      obtain ⟨hk, hkept⟩ := List.mem_filter.mp hk
      rcases List.mem_append.mp hk' with hk' | hk'
      · exact (mem_map_beyond.mp hk').2 hk
      · exact of_decide_eq_true hkept (List.mem_append_right _ hk')
  refine (List.perm_ext_iff_of_nodup hnodup h').mpr fun k => ?_
  have hk := hmem k
  simp only [List.mem_append, List.mem_filter, decide_eq_true_eq, mem_map_beyond]
  tauto

/-! ## Series of changes -/

theorem fresh_nil_left {as : List α} : Fresh key [] as ↔ (as.map key).Nodup := by
  simp [Fresh]

theorem fresh_nil_right (l : List α) : Fresh key l [] := by
  simp [Fresh]

/-- Members can be added if the first one can, and the others after it. -/
theorem fresh_cons {l as : List α} {a : α} :
    Fresh key l (a :: as) ↔ key a ∉ l.map key ∧ Fresh key (l ++ [a]) as := by
  unfold Fresh
  rw [List.map_cons, List.nodup_cons, List.forall_mem_cons, List.map_append, List.map_singleton]
  simp only [List.mem_append, List.mem_singleton, not_or, forall_and]
  constructor
  · rintro ⟨⟨hnew, hnodup⟩, hfree, hrest⟩
    exact ⟨hfree, hnodup, hrest, fun b hb e => hnew (List.mem_map.mpr ⟨b, hb, e⟩)⟩
  · rintro ⟨hfree, hnodup, hrest, hne⟩
    refine ⟨⟨fun hmem => ?_, hnodup⟩, hfree, hrest⟩
    obtain ⟨b, hb, e⟩ := List.mem_map.mp hmem
    exact hne b hb e

theorem Fresh.tail {l as : List α} {a : α} (h : Fresh key l (a :: as)) : Fresh key l as :=
  ⟨(List.nodup_cons.mp h.1).2, fun b hb => h.2 b (List.mem_cons_of_mem a hb)⟩

/-- Members with distinct free keys can all be added. -/
theorem foldlM_insert? : ∀ {as l : List α}, Fresh key l as →
    as.foldlM (insert? key) l = some (l ++ as)
  | [], l, _ => by simp
  | a :: as, l, h => by
    obtain ⟨hfree, hrest⟩ := fresh_cons.mp h
    have hstep : insert? key l a = some (l ++ [a]) := if_neg hfree
    rw [List.foldlM_cons, hstep]
    show as.foldlM (insert? key) (l ++ [a]) = some (l ++ a :: as)
    rw [foldlM_insert? hrest, List.append_assoc, List.singleton_append]

/-- The members of distinct keys that are there can all be dropped. -/
theorem foldlM_erase? : ∀ {ks : List String} {l : List α}, ks.Nodup → (∀ k ∈ ks, k ∈ l.map key) →
    ks.foldlM (erase? key) l = some (l.filter fun a => key a ∉ ks)
  | [], l, _, _ => by simp
  | k :: ks, l, h, hmem => by
    rw [List.nodup_cons] at h
    have hstep : erase? key l k = some (l.filter fun a => key a ≠ k) :=
      if_pos (hmem k List.mem_cons_self)
    have hrest : ∀ k' ∈ ks, k' ∈ (l.filter fun a => key a ≠ k).map key := fun k' hk' => by
      obtain ⟨a, ha, rfl⟩ := List.mem_map.mp (hmem k' (List.mem_cons_of_mem k hk'))
      refine List.mem_map_of_mem (List.mem_filter.mpr ⟨ha, decide_eq_true fun e => h.1 ?_⟩)
      rw [← e]
      exact hk'
    rw [List.foldlM_cons, hstep]
    show ks.foldlM (erase? key) (l.filter fun a => key a ≠ k) = _
    rw [foldlM_erase? h.2 hrest, List.filter_filter]
    congr 1
    refine List.filter_congr fun a _ => ?_
    simp [Bool.and_comm]

theorem key_replacement (as : List α) (b : α) : key (replacement key as b) = key b := by
  unfold replacement
  cases h : as.find? fun a => key a == key b with
  | none => rfl
  | some a => simpa using List.find?_some h

/-- Members can be replaced by others of their keys: `p.1` takes the place of `p.2`. -/
theorem foldlM_replace? : ∀ {ps : List (α × α)} {l : List α}, (ps.map fun p => key p.1).Nodup →
    (∀ p ∈ ps, key p.1 = key p.2 ∧ key p.2 ∈ l.map key) →
    ps.foldlM (fun l p => replace? key l (key p.2) p.1) l =
      some (l.map (replacement key (ps.map Prod.fst)))
  | [], l, _, _ => by
    show some l = _
    rw [show replacement key ([].map Prod.fst) = id from rfl, List.map_id]
  | (a, o) :: ps, l, h, hmem => by
    rw [List.map_cons, List.nodup_cons] at h
    obtain ⟨e : key a = key o, ho : key o ∈ l.map key⟩ := hmem (a, o) List.mem_cons_self
    rw [← e] at ho
    have hstep : replace? key l (key o) a =
        some (l.map fun b => if key b = key a then a else b) := by
      rw [← e]
      exact if_pos ⟨ho, Or.inl rfl⟩
    have hkeys : (l.map fun b => if key b = key a then a else b).map key = l.map key := by
      rw [List.map_map]
      refine List.map_congr_left fun b _ => ?_
      by_cases hb : key b = key a <;> simp [hb]
    have hrest : ∀ p ∈ ps, key p.1 = key p.2 ∧
        key p.2 ∈ (l.map fun b => if key b = key a then a else b).map key :=
      fun p hp => hkeys ▸ hmem p (List.mem_cons_of_mem _ hp)
    rw [List.foldlM_cons, hstep]
    show ps.foldlM _ (l.map fun b => if key b = key a then a else b) = _
    rw [foldlM_replace? h.2 hrest, List.map_map]
    congr 1
    refine List.map_congr_left fun b _ => ?_
    by_cases hb : key b = key a
    · -- no later member has the key of `a`, so `a` stays
      have hnone : (ps.map Prod.fst).find? (fun c => key c == key a) = none :=
        find?_eq_none_iff.mpr (by simpa using h.1)
      simp [replacement, hb, hnone]
    · simp [replacement, hb, Ne.symm hb]

/-! ## Lists of keys -/

theorem insert?_id {l : List String} {k : String} (h : k ∉ l) : insert? id l k = some (l ++ [k]) :=
  if_neg (by rwa [List.map_id])

theorem replace?_id {l : List String} {k : String} (h : k ∈ l) : replace? id l k k = some l := by
  have hsame : (l.map fun b => if id b = k then k else b) = l := by
    rw [List.map_congr_left (g := id) fun b _ => ?_, List.map_id]
    by_cases hb : b = k <;> simp [hb]
  unfold replace?
  rw [List.map_id, if_pos ⟨h, Or.inl rfl⟩, hsame]

theorem foldlM_erase?_id {ks l : List String} (h : ks.Nodup) (hmem : ∀ k ∈ ks, k ∈ l) :
    ks.foldlM (erase? id) l = some (l.filter fun k => k ∉ ks) :=
  foldlM_erase? h fun k hk => by
    rw [List.map_id]
    exact hmem k hk

/-! ## Series on a component -/

theorem foldlM_component {σ γ β : Type} (get : σ → γ) (set : σ → γ → σ) {step : σ → β → Option σ}
    {f : γ → β → Option γ} (hstep : ∀ s b, step s b = (f (get s) b).map (set s))
    (hget : ∀ s c, get (set s c) = c) (hset : ∀ s c c', set (set s c) c' = set s c')
    (hself : ∀ s, set s (get s) = s) :
    ∀ (bs : List β) (s : σ), bs.foldlM step s = (bs.foldlM f (get s)).map (set s)
  | [], s => congrArg some (hself s).symm
  | b :: bs, s => by
    rw [List.foldlM_cons, List.foldlM_cons, hstep]
    cases f (get s) b with
    | none => rfl
    | some c =>
      show bs.foldlM step (set s c) = (bs.foldlM f c).map (set s)
      rw [foldlM_component get set hstep hget hset hself bs (set s c), hget, funext (hset s c)]

/-- Distinct keys that are there can all be dropped from a component. -/
theorem foldlM_erase?_component {σ : Type} (get : σ → List String) (set : σ → List String → σ)
    {step : σ → String → Option σ} (hstep : ∀ s k, step s k = (erase? id (get s) k).map (set s))
    (hget : ∀ s l, get (set s l) = l) (hset : ∀ s l l', set (set s l) l' = set s l')
    (hself : ∀ s, set s (get s) = s) {ks : List String} {s : σ} (h : ks.Nodup)
    (hmem : ∀ k ∈ ks, k ∈ get s) :
    ks.foldlM step s = some (set s ((get s).filter fun k => k ∉ ks)) := by
  rw [foldlM_component get set hstep hget hset hself, foldlM_erase?_id h hmem]
  rfl

end SchemaMigration.Keyed
