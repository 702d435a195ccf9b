import Mathlib.Algebra.Group.Nat.Defs
import Mathlib.Data.List.Chain
import SchemaMigration.Backend
import SchemaMigration.Proofs.Description.Expansion
import SchemaMigration.Proofs.Outcome

/-!
# Reading page after page

The cursor of a page leads to the next one. Following it from the first page until it leads nowhere
shows every row from there on once, and stops after the first page that is not full.

About `next_offset` and the `range` of `Select`.

* `Backend.Serves`: the answers to a select are the windows of a list of rows.
* `Backend.Follows`: the pages that are read when the cursor is followed.
* `Backend.Serves.step`: one page, and where its cursor leads.
* `Paged`: the pages cover the rows; `Backend.Serves.exists_follows`: so it is when the cursor is
  followed, by induction on the rows that are left.
* **`Select.follows_pages`**: so it is from every window that a select accepts.
-/

namespace SchemaMigration

/-- The select with its window moved to an offset. -/
def Select.movedTo (q : Select) (offset : UInt64) : Select :=
  { q with range := ⟨offset, q.range.limit⟩ }

namespace Backend

variable {σ : Type}

/-- In the states `S` the backend answers a select, whatever its window, with the rows in the window
and with the cursor of that window. -/
def Serves (b : Backend σ) (vars : Variables) (q : Select) (all : List (List Value))
    (S : σ → Prop) : Prop :=
  ∀ (r : Range) (limit : UInt64) (s : σ), r.limit = some limit → S s → ∃ page t,
    b.execute vars (.select { q with range := r }) s = (.ok (.selected page), t) ∧ S t ∧
      page.rows = (all.drop r.offset.toNat).take limit.toNat ∧
      page.cursor = Cursor.ofRange r (.ofNat page.rows.length)

/-- The pages that are read from a select on, each where the cursor of the page before it leads. The
last one is the first page whose cursor leads nowhere. -/
inductive Follows (b : Backend σ) (vars : Variables) : Select → σ → List Rows → σ → Prop
  /-- The cursor leads nowhere. -/
  | last {q : Select} {s t : σ} {page : Rows}
      (h : b.execute vars (.select q) s = (.ok (.selected page), t))
      (hlast : page.cursor.nextOffset? = none) : Follows b vars q s [page] t
  /-- The cursor leads to the next page. -/
  | next {q : Select} {s t u : σ} {page : Rows} {pages : List Rows} {offset : UInt64}
      (h : b.execute vars (.select q) s = (.ok (.selected page), t))
      (hnext : page.cursor.nextOffset? = some offset)
      (hpages : Follows b vars (q.movedTo offset) t pages u) : Follows b vars q s (page :: pages) u

/-- Following the cursor reads these pages and no others. -/
theorem Follows.unique {b : Backend σ} {vars : Variables} {q : Select} {s t t' : σ}
    {pages pages' : List Rows} (h : b.Follows vars q s pages t)
    (h' : b.Follows vars q s pages' t') : pages' = pages ∧ t' = t := by
  induction h generalizing pages' t' with
  | last h hlast =>
    cases h' with
    | last h' _ =>
      cases h.symm.trans h'
      exact ⟨rfl, rfl⟩
    | next h' hnext _ =>
      cases h.symm.trans h'
      rw [hlast] at hnext
      cases hnext
  | next h hnext _ ih =>
    cases h' with
    | last h' hlast =>
      cases h.symm.trans h'
      rw [hlast] at hnext
      cases hnext
    | next h' hnext' hpages' =>
      cases h.symm.trans h'
      cases hnext.symm.trans hnext'
      obtain ⟨rfl, rfl⟩ := ih hpages'
      exact ⟨rfl, rfl⟩

end Backend

/-! ## Pages of rows -/

/-- The pages are the rows from a place on. -/
structure Paged (all : List (List Value)) (limit : UInt64) (start : Nat) (pages : List Rows) :
    Prop where
  /-- There are as many full pages as there can be, and one more. -/
  count : pages.length = (all.length - start) / limit.toNat + 1
  /-- The first page starts at the place. -/
  first : ∀ p ∈ pages.head?, p.cursor.offset.toNat = start
  /-- Every page starts where the one before it ends. -/
  consecutive : pages.IsChain fun p p' =>
    p'.cursor.offset.toNat = p.cursor.offset.toNat + p.cursor.returned.toNat
  /-- Every page has the rows of its window, and its cursor counts them. -/
  window : ∀ p ∈ pages, p.cursor.limit = some limit ∧
    p.rows = (all.drop p.cursor.offset.toNat).take limit.toNat ∧
    p.cursor.returned.toNat = p.rows.length
  /-- Together the pages have every row once, in order. -/
  covers : pages.flatMap Rows.rows = all.drop start
  /-- Where a cursor leads on, its offset and its limit add up to a word of 64 bits. -/
  fits : ∀ p ∈ pages, ∀ next ∈ p.cursor.nextOffset?,
    p.cursor.offset.toNat + limit.toNat < 2 ^ 64 ∧
      next.toNat = p.cursor.offset.toNat + limit.toNat

namespace Paged

variable {all : List (List Value)} {limit : UInt64} {start : Nat} {page : Rows} {pages : List Rows}

/-- No page starts before an earlier one ends. -/
theorem disjoint (h : Paged all limit start pages) :
    pages.Pairwise fun p p' =>
      p.cursor.offset.toNat + p.cursor.returned.toNat ≤ p'.cursor.offset.toNat := by
  have htrans : IsTrans Rows fun p p' =>
      p.cursor.offset.toNat + p.cursor.returned.toNat ≤ p'.cursor.offset.toNat :=
    ⟨fun _ _ _ hab hbc => by omega⟩
  exact List.isChain_iff_pairwise.mp (h.consecutive.imp fun _ _ hnext => hnext.ge)

/-- A page that is not full is the last one. -/
theorem single (hlimit : 0 < limit.toNat) (hoffset : page.cursor.offset.toNat = start)
    (hlim : page.cursor.limit = some limit)
    (hrows : page.rows = (all.drop start).take limit.toNat)
    (hreturned : page.cursor.returned.toNat = page.rows.length)
    (hshort : all.length < start + limit.toNat) (hnone : page.cursor.nextOffset? = none) :
    Paged all limit start [page] := by
  subst hoffset
  refine ⟨?_, ?_, List.isChain_singleton page, ?_, ?_, ?_⟩
  · rw [Nat.div_eq_of_lt (by omega)]
    rfl
  · rintro p ⟨⟩
    rfl
  · rintro p hp
    obtain rfl := List.mem_singleton.mp hp
    exact ⟨hlim, hrows, hreturned⟩
  · rw [List.flatMap_singleton, hrows, List.take_of_length_le]
    rw [List.length_drop]
    omega
  · rintro p hp next hnext
    obtain rfl := List.mem_singleton.mp hp
    rw [hnone] at hnext
    cases hnext

/-- A full page stands before the pages that its cursor leads to. -/
theorem cons (h : Paged all limit (start + limit.toNat) pages) (hsize : all.length < 2 ^ 64)
    (hlimit : 0 < limit.toNat) (hoffset : page.cursor.offset.toNat = start)
    (hlim : page.cursor.limit = some limit)
    (hrows : page.rows = (all.drop start).take limit.toNat)
    (hreturned : page.cursor.returned.toNat = page.rows.length)
    (hfull : start + limit.toNat ≤ all.length) {next : UInt64}
    (hnext : page.cursor.nextOffset? = some next) (hsum : next.toNat = start + limit.toNat) :
    Paged all limit start (page :: pages) := by
  subst hoffset
  have hlength : page.rows.length = limit.toNat := by
    rw [hrows, List.length_take, List.length_drop]
    omega
  have hcount : (all.length - page.cursor.offset.toNat) / limit.toNat =
      (all.length - (page.cursor.offset.toNat + limit.toNat)) / limit.toNat + 1 := by
    rw [Nat.div_eq_sub_div hlimit (by omega), Nat.sub_sub]
  refine ⟨?_, ?_, ?_, ?_, ?_, ?_⟩
  · rw [List.length_cons, h.count, hcount]
  · rintro p ⟨⟩
    rfl
  · refine List.isChain_cons.mpr ⟨fun p hp => ?_, h.consecutive⟩
    rw [h.first p hp, hreturned, hlength]
  · exact List.forall_mem_cons.mpr ⟨⟨hlim, hrows, hreturned⟩, h.window⟩
  · rw [List.flatMap_cons, h.covers, hrows, ← List.drop_drop, List.take_append_drop]
  · refine List.forall_mem_cons.mpr ⟨fun next' hnext' => ?_, h.fits⟩
    obtain rfl : next' = next := Option.some.inj (hnext'.symm.trans hnext)
    exact ⟨by omega, hsum⟩

end Paged

namespace Backend

variable {σ : Type} {b : Backend σ} {vars : Variables} {q : Select} {all : List (List Value)}
  {S : σ → Prop}

/-- One page, and where its cursor leads: behind its window, if there are rows up to there. -/
theorem Serves.step (h : b.Serves vars q all S) (hsize : all.length < 2 ^ 64) {r : Range}
    {limit : UInt64} {s : σ} (hr : r.limit = some limit) (hlimit : 0 < limit.toNat) (hs : S s) :
    ∃ page t, b.execute vars (.select { q with range := r }) s = (.ok (.selected page), t) ∧ S t ∧
      page.rows = (all.drop r.offset.toNat).take limit.toNat ∧
      page.cursor.offset = r.offset ∧ page.cursor.limit = some limit ∧
      page.cursor.returned.toNat = page.rows.length ∧
      (all.length < r.offset.toNat + limit.toNat ∧ page.cursor.nextOffset? = none ∨
        r.offset.toNat + limit.toNat ≤ all.length ∧
          page.cursor.nextOffset? = some (r.offset + limit) ∧
          (r.offset + limit).toNat = r.offset.toNat + limit.toNat) := by
  obtain ⟨page, t, hrun, ht, hrows, hcursor⟩ := h r limit s hr hs
  have hlength : page.rows.length = min limit.toNat (all.length - r.offset.toNat) := by
    rw [hrows, List.length_take, List.length_drop]
  have hreturned : (UInt64.ofNat page.rows.length).toNat = page.rows.length :=
    UInt64.toNat_ofNat_of_lt' (by show _ < 2 ^ 64; omega)
  refine ⟨page, t, hrun, ht, hrows, ?_⟩
  rw [hcursor]
  refine ⟨rfl, hr, hreturned, ?_⟩
  unfold Cursor.nextOffset? Cursor.ofRange
  rw [hr]
  -- A full page shows that there are rows up to its end, so that its end is a word of 64 bits.
  by_cases hfull : r.offset.toNat + limit.toNat ≤ all.length
  · have hfull' : UInt64.ofNat page.rows.length = limit := by
      rw [← UInt64.toNat_inj, hreturned]
      omega
    have hsum : (r.offset + limit).toNat = r.offset.toNat + limit.toNat := by
      rw [UInt64.toNat_add]
      exact Nat.mod_eq_of_lt (by omega)
    exact Or.inr ⟨hfull, if_pos ⟨UInt64.lt_iff_toNat_lt.mpr hlimit, hfull'⟩, hsum⟩
  · have hshort : UInt64.ofNat page.rows.length ≠ limit := by
      rw [Ne, ← UInt64.toNat_inj, hreturned]
      omega
    exact Or.inl ⟨by omega, if_neg fun hnext => hshort hnext.2⟩

/-- **Following the cursor ends**, and the pages are the rows from the first window on. -/
theorem Serves.exists_follows (h : b.Serves vars q all S) (hsize : all.length < 2 ^ 64)
    {limit : UInt64} (hlimit : 0 < limit.toNat) : ∀ (r : Range) (s : σ), r.limit = some limit →
      S s → ∃ pages t, b.Follows vars { q with range := r } s pages t ∧ S t ∧
        Paged all limit r.offset.toNat pages
  | r, s, hr, hs => by
    obtain ⟨page, t, hrun, ht, hrows, hoffset, hlim, hreturned, hnext⟩ :=
      h.step hsize hr hlimit hs
    have hstart : page.cursor.offset.toNat = r.offset.toNat := congrArg UInt64.toNat hoffset
    rcases hnext with ⟨hshort, hnone⟩ | ⟨hfull, hsome, hsum⟩
    · exact ⟨[page], t, .last hrun hnone, ht,
        .single hlimit hstart hlim hrows hreturned hshort hnone⟩
    · -- The page is full, so fewer rows are left behind it.
      obtain ⟨pages, u, hpages, hu, hpaged⟩ :=
        exists_follows h hsize hlimit ⟨r.offset + limit, some limit⟩ t rfl ht
      rw [← hr] at hpages
      rw [hsum] at hpaged
      exact ⟨page :: pages, u, .next hrun hsome hpages, hu,
        hpaged.cons hsize hlimit hstart hlim hrows hreturned hfull hsome hsum⟩
termination_by r => all.length - r.offset.toNat

end Backend

/-- A window with a limit is accepted where neither bound is negative, and has the bounds. -/
theorem Select.window_limit_eq_ok_iff {q q' : Select} {offset limit : Int64} :
    q.window offset (some limit) = .ok q' ↔
      0 ≤ offset ∧ 0 ≤ limit ∧
        q' = { q with range := ⟨offset.toUInt64, some limit.toUInt64⟩ } := by
  unfold window
  by_cases hoffset : offset < 0
  · rw [if_pos hoffset]
    exact ⟨fun h => (nomatch h), fun h => absurd h.1 (Int64.not_le.mpr hoffset)⟩
  · rw [if_neg hoffset]
    by_cases hlimit : limit < 0
    · simp only [if_pos hlimit]
      exact ⟨fun h => (nomatch h), fun h => absurd h.2.1 (Int64.not_le.mpr hlimit)⟩
    · simp only [if_neg hlimit, Except.ok.injEq]
      exact ⟨fun h => ⟨Int64.not_lt.mp hoffset, Int64.not_lt.mp hlimit, h.symm⟩,
        fun h => h.2.2.symm⟩

/-- **Following the cursor from a window** that a select accepts, with a limit, on a backend that
answers with the rows of a window: the pages that are read are the rows from the offset on. -/
theorem Select.follows_pages {σ : Type} {q first : Select} {offset limit : Int64}
    (hfirst : q.window offset (some limit) = .ok first) (hlimit : 0 < limit) {b : Backend σ}
    {vars : Variables} {all : List (List Value)} {S : σ → Prop} (hserves : b.Serves vars q all S)
    (hsize : all.length < 2 ^ 64) {s : σ} (hs : S s) :
    ∃ pages t, (∀ pages' t', b.Follows vars first s pages' t' ↔ pages' = pages ∧ t' = t) ∧
      Paged all limit.toUInt64 offset.toInt.toNat pages ∧
      (pages.Pairwise fun p p' =>
        p.cursor.offset.toNat + p.cursor.returned.toNat ≤ p'.cursor.offset.toNat) := by
  obtain ⟨hoffset, hnonneg, rfl⟩ := window_limit_eq_ok_iff.mp hfirst
  have hpositive : 0 < limit.toUInt64.toNat := by
    have hint : (0 : Int) < limit.toInt := Int64.lt_iff_toInt_lt.mp hlimit
    rw [Int64.toNat_toUInt64_of_le hnonneg]
    exact Int.lt_toNat.mpr hint
  obtain ⟨pages, t, hpages, -, hpaged⟩ := hserves.exists_follows hsize hpositive
    ⟨offset.toUInt64, some limit.toUInt64⟩ s rfl hs
  rw [Int64.toNat_toUInt64_of_le hoffset] at hpaged
  refine ⟨pages, t, fun pages' t' => ⟨hpages.unique, ?_⟩, hpaged, hpaged.disjoint⟩
  rintro ⟨rfl, rfl⟩
  exact hpages

/-! ## An example -/

namespace Posts

/-- The select of every post. -/
def everyPost : Select :=
  Select.empty.inCollection collection

/-- The posts of a table. -/
def entries : List (List Value) :=
  [[.int 1, .text "Hello"], [.int 2, .text "Again"], [.int 3, .text "Goodbye"]]

/-- A table of posts that answers every query with the posts in its window, and counts queries. -/
def pager : Backend Nat :=
  ⟨.sqlite, fun q asked =>
    let rows := (entries.drop q.range.offset.toNat).take
      ((q.range.limit.map UInt64.toNat).getD entries.length)
    (.ok (.selected ⟨["id", "title"], rows, .ofRange q.range (.ofNat rows.length)⟩), asked + 1)⟩

theorem pager_serves : pager.Serves [] everyPost entries fun _ => True := by
  rintro ⟨offset, _⟩ limit asked rfl -
  exact ⟨_, asked + 1, rfl, trivial, rfl, rfl⟩

end Posts

/-- The posts from the second on are followed in pages of two, each of them once. -/
theorem Select.follows_pages_of_posts :
    Posts.everyPost.window 1 (some 2) = .ok { Posts.everyPost with range := ⟨1, some 2⟩ } ∧
      (0 : Int64) < 2 ∧ Posts.pager.Serves [] Posts.everyPost Posts.entries (fun _ => True) ∧
      Posts.entries.length < 2 ^ 64 ∧
      ∃ pages t,
        (∀ pages' t', Posts.pager.Follows [] { Posts.everyPost with range := ⟨1, some 2⟩ } 0
          pages' t' ↔ pages' = pages ∧ t' = t) ∧
        Paged Posts.entries 2 1 pages ∧
        (pages.Pairwise fun p p' =>
          p.cursor.offset.toNat + p.cursor.returned.toNat ≤ p'.cursor.offset.toNat) :=
  have hfirst : Posts.everyPost.window 1 (some 2) =
      .ok { Posts.everyPost with range := ⟨1, some 2⟩ } := rfl
  ⟨hfirst, by decide, Posts.pager_serves, by decide,
    follows_pages hfirst (by decide) Posts.pager_serves (by decide) trivial⟩

end SchemaMigration
