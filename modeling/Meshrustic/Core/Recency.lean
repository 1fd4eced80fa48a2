import Meshrustic.Core.Clock
import Meshrustic.Core.Table
import Mathlib.Data.List.Induction

/-!
# Tables that keep what was noted last

A table of one row a key. A note replaces the row of its key, or is appended; a full table
gives up the row of greatest age for it. In terms of the log of all notes a row is the last note
of its key, and a key without a row has been displaced: the table is full of keys that were
noted no earlier.

* `Table.renew`: a note is taken.
* `LatestOf`, `RecallsLatest`: what the table has of a log.
* `renewed`: what a note does to the rows.
* `latestOf_notes`: over any notes; `recalls_notes`: with stamps of a clock that wraps.
* `LatestOf.find_some`, `RecallsLatest.find_kept`: what is found, and as long as it is not `Displaced`.
-/
namespace Meshrustic

variable {cap : Nat} {α κ : Type} [DecidableEq κ]

/-- The first of the rows with the greatest age, by a scan that starts at row `i` with the best
row so far. -/
def oldestFrom (age : α → Nat) : List α → Nat → Nat × Nat → Nat
  | [], _, best => best.1
  | r :: rows, i, best => oldestFrom age rows (i + 1) (if best.2 < age r then (i, age r) else best)

def oldestIdx (age : α → Nat) : List α → Nat
  | [] => 0
  | r :: rows => oldestFrom age rows 1 (0, age r)

/-- Takes a note: the row of its key, a new one, or that of the oldest. -/
def Table.renew (key : α → κ) (age : α → Nat) (fresh : α) (t : Table cap α) : Table cap α :=
  match t.rows.findIdx? fun r => key r == key fresh with
  | some i => t.set i fresh
  | none =>
    match t.push fresh with
    | some t' => t'
    | none => t.set (oldestIdx age t.rows) fresh

/-- The last note of a key, with its time; the latest note is the first of the log. -/
def lastNote (key : α → κ) (k : κ) (log : List (α × Nat)) : Option (α × Nat) :=
  log.find? fun n => key n.1 == k

/-- The rows of a table are the last notes of their keys. -/
structure LatestOf (key : α → κ) (t : Table cap α) (log : List (α × Nat)) : Prop where
  distinct : (t.rows.map key).Nodup
  latest : ∀ r ∈ t.rows, ∃ time, lastNote key (key r) log = some (r, time)

/-- And a key without a row gave way to later ones. -/
structure RecallsLatest (key : α → κ) (t : Table cap α) (log : List (α × Nat)) : Prop
    extends LatestOf key t log where
  displaced : ∀ k n, lastNote key k log = some n → k ∈ t.rows.map key ∨
    t.rows.length = cap ∧ ∀ r ∈ t.rows, ∀ m, lastNote key (key r) log = some m → n.2 ≤ m.2

/-! ## The oldest row -/

theorem oldestFrom_spec (age : α → Nat) {front rows : List α} {best : Nat × Nat}
    (hbest : ∃ b, (front ++ rows)[best.1]? = some b ∧ age b = best.2)
    (hfront : ∀ r ∈ front, age r ≤ best.2) :
    ∃ b, (front ++ rows)[oldestFrom age rows front.length best]? = some b ∧
      ∀ r ∈ front ++ rows, age r ≤ age b := by
  induction rows generalizing front best with
  | nil =>
    obtain ⟨b, hb, hage⟩ := hbest
    refine ⟨b, hb, fun r hr => ?_⟩
    rw [List.append_nil] at hr
    have := hfront r hr
    omega
  | cons r rows ih =>
    have hshift : front ++ r :: rows = (front ++ [r]) ++ rows := by simp
    have hlength : front.length + 1 = (front ++ [r]).length := by simp
    rw [oldestFrom, hshift, hlength]
    rw [hshift] at hbest
    apply ih
    · split
      · exact ⟨r, by simp, rfl⟩
      · exact hbest
    · intro x hx
      rcases List.mem_append.mp hx with hx | hx
      · have := hfront x hx
        split <;> omega
      · rw [List.mem_singleton.mp hx]
        split <;> omega

/-- A row of the greatest age. -/
theorem oldestIdx_spec (age : α → Nat) {rows : List α} (h : rows ≠ []) :
    ∃ b, rows[oldestIdx age rows]? = some b ∧ ∀ r ∈ rows, age r ≤ age b := by
  cases rows with
  | nil => exact absurd rfl h
  | cons r rows =>
    have hfirst : ∀ x ∈ [r], age x ≤ age r := by simp
    have hbest : ∃ b, ([r] ++ rows)[(0, age r).1]? = some b ∧ age b = (0, age r).2 := ⟨r, rfl, rfl⟩
    exact oldestFrom_spec age hbest hfirst

/-! ## A note -/

section

variable {key : α → κ} {age : α → Nat} {fresh : α} {t : Table cap α} {log : List (α × Nat)}
  {now : Nat}

theorem lastNote_cons (k : κ) (n : α × Nat) :
    lastNote key k (n :: log) = if key n.1 = k then some n else lastNote key k log := by
  by_cases h : key n.1 = k <;> simp [lastNote, h]

theorem lastNote_key {k : κ} {n : α × Nat} (h : lastNote key k log = some n) : key n.1 = k := by
  simpa using List.find?_some h

theorem lastNote_mem {k : κ} {n : α × Nat} (h : lastNote key k log = some n) : n ∈ log :=
  List.mem_of_find?_eq_some h

/-- In a log whose times fall, no note of the key is later than the last one. -/
theorem lastNote_latest {n : α × Nat} (hlog : log.Pairwise fun a b => b.2 ≤ a.2) (hn : n ∈ log) :
    ∃ m, lastNote key (key n.1) log = some m ∧ n.2 ≤ m.2 := by
  induction log with
  | nil => exact absurd hn List.not_mem_nil
  | cons m log ih =>
    obtain ⟨hm, hlog⟩ := List.pairwise_cons.mp hlog
    rw [lastNote_cons]
    split
    · refine ⟨m, rfl, ?_⟩
      rcases List.mem_cons.mp hn with rfl | hn
      · exact Nat.le_refl _
      · exact hm n hn
    · rename_i hne
      rcases List.mem_cons.mp hn with rfl | hn
      · exact absurd rfl hne
      · exact ih hlog hn

theorem LatestOf.empty : LatestOf key (.empty : Table cap α) [] where
  distinct := List.nodup_nil
  latest _ hr := absurd hr List.not_mem_nil

theorem RecallsLatest.empty : RecallsLatest key (.empty : Table cap α) [] where
  toLatestOf := .empty
  displaced _ _ hn := nomatch hn

theorem mem_set_index {rows : List α} {i : Nat} {r : α} (h : r ∈ rows.set i fresh) :
    r = fresh ∨ ∃ j, j ≠ i ∧ rows[j]? = some r := by
  obtain ⟨j, hj⟩ := List.mem_iff_getElem?.mp h
  by_cases hij : j = i
  · subst hij
    obtain ⟨hlt, -⟩ := List.getElem?_eq_some_iff.mp hj
    rw [List.getElem?_set_self (by simpa using hlt)] at hj
    exact .inl (Option.some.inj hj).symm
  · rw [List.getElem?_set_ne (Ne.symm hij)] at hj
    exact .inr ⟨j, hij, hj⟩

theorem getElem?_mem_set {rows : List α} {i j : Nat} {r : α} (hij : j ≠ i) (h : rows[j]? = some r) :
    r ∈ rows.set i fresh := by
  apply List.mem_of_getElem?
  rw [List.getElem?_set_ne (Ne.symm hij)]
  exact h

omit [DecidableEq κ] in
/-- Keys that are distinct tell the rows apart. -/
theorem key_ne {rows : List α} (hnodup : (rows.map key).Nodup) {i j : Nat} {r x : α}
    (hi : rows[i]? = some r) (hj : rows[j]? = some x) (hij : j ≠ i) : key x ≠ key r := by
  intro heq
  have hkeys : (rows.map key)[j]? = (rows.map key)[i]? := by simp [hi, hj, heq]
  have hlt : j < (rows.map key).length := by
    obtain ⟨hlt, -⟩ := List.getElem?_eq_some_iff.mp hj
    simpa using hlt
  exact hij ((List.getElem?_inj hlt hnodup).mp hkeys)

/-- What a note does to the rows: those of other keys stay, or the oldest of them makes room. -/
structure Renewed (key : α → κ) (age : α → Nat) (fresh : α) (t t' : Table cap α) : Prop where
  distinct : (t'.rows.map key).Nodup
  rows : ∀ r ∈ t'.rows, r = fresh ∨ r ∈ t.rows ∧ key r ≠ key fresh
  fresh : fresh ∈ t'.rows
  full : t.rows.length = cap → t'.rows.length = cap
  lost : ∀ r ∈ t.rows, key r ∉ t'.rows.map key →
    t'.rows.length = cap ∧ ∀ x ∈ t.rows, age x ≤ age r

omit [DecidableEq κ] in
/-- A row is replaced by one of its key, or by one of a new key if it is the oldest. -/
theorem renewed_set (hnodup : (t.rows.map key).Nodup) {i : Nat} {r : α} (hi : t.rows[i]? = some r)
    (h : key r = key fresh ∨
      key fresh ∉ t.rows.map key ∧ t.rows.length = cap ∧ ∀ x ∈ t.rows, age x ≤ age r) :
    Renewed key age fresh t (t.set i fresh) := by
  obtain ⟨hlt, hri⟩ := List.getElem?_eq_some_iff.mp hi
  have hkept {x : α} (hx : x ∈ t.rows) (hne : x ≠ r) : x ∈ t.rows.set i fresh := by
    obtain ⟨j, hj⟩ := List.mem_iff_getElem?.mp hx
    refine getElem?_mem_set (fun hij => hne ?_) hj
    subst hij
    exact Option.some.inj (hj.symm.trans hi)
  refine ⟨?_, ?_, List.mem_set hlt fresh, ?_, ?_⟩
  · change ((t.rows.set i fresh).map key).Nodup
    rcases h with hkey | ⟨hkey, -, -⟩
    · have hsame : (t.rows.set i fresh).map key = t.rows.map key := by
        subst hri
        rw [List.map_set, ← hkey, ← List.map_set, List.set_getElem_self]
      exact hsame ▸ hnodup
    · rw [List.map_set]
      exact hnodup.set hkey
  · intro x hx
    rcases mem_set_index hx with rfl | ⟨j, hij, hj⟩
    · exact .inl rfl
    · refine .inr ⟨List.mem_of_getElem? hj, ?_⟩
      rcases h with hkey | ⟨hkey, -, -⟩
      · exact hkey ▸ key_ne hnodup hi hj hij
      · exact fun heq => hkey (heq ▸ List.mem_map_of_mem (List.mem_of_getElem? hj))
  · intro hfull
    exact List.length_set.trans hfull
  · intro x hx hlost
    have hxr : x = r := by
      by_contra hne
      exact hlost (List.mem_map_of_mem (hkept hx hne))
    subst hxr
    rcases h with hkey | ⟨-, hfull, hold⟩
    · exact absurd (hkey ▸ List.mem_map_of_mem (List.mem_set hlt fresh)) hlost
    · exact ⟨List.length_set.trans hfull, hold⟩

omit [DecidableEq κ] in
theorem renewed_append (hnodup : (t.rows.map key).Nodup) (hkey : key fresh ∉ t.rows.map key)
    {t' : Table cap α} (hrows : t'.rows = t.rows ++ [fresh]) : Renewed key age fresh t t' := by
  have hle := t'.le
  rw [hrows, List.length_append, List.length_singleton] at hle
  refine ⟨?_, ?_, by simp [hrows], by omega, ?_⟩
  · rw [hrows, List.map_append, List.nodup_append]
    refine ⟨hnodup, by simp, ?_⟩
    intro x hx y hy heq
    rw [List.map_singleton, List.mem_singleton] at hy
    exact hkey (hy ▸ heq ▸ hx)
  · intro x hx
    rw [hrows, List.mem_append, List.mem_singleton] at hx
    rcases hx with hx | rfl
    · exact .inr ⟨hx, fun heq => hkey (heq ▸ List.mem_map_of_mem hx)⟩
    · exact .inl rfl
  · intro x hx hlost
    rw [hrows, List.map_append, List.mem_append] at hlost
    exact absurd (.inl (List.mem_map_of_mem hx)) hlost

theorem renewed (hnodup : (t.rows.map key).Nodup) (hcap : 0 < cap) :
    Renewed key age fresh t (t.renew key age fresh) := by
  unfold Table.renew
  cases hfind : t.rows.findIdx? fun r => key r == key fresh with
  | some i =>
    obtain ⟨hi, hp, -⟩ := List.findIdx?_eq_some_iff_getElem.mp hfind
    exact renewed_set hnodup (List.getElem?_eq_getElem hi) (.inl (by simpa using hp))
  | none =>
    have hkey : key fresh ∉ t.rows.map key := by
      rw [List.mem_map]
      rintro ⟨r, hr, heq⟩
      have := List.findIdx?_eq_none_iff.mp hfind r hr
      simp [heq] at this
    cases hpush : t.push fresh with
    | some t' => exact renewed_append hnodup hkey (Table.push_rows hpush)
    | none =>
      have hfull := Table.push_none hpush
      have hsome : t.rows ≠ [] := by
        rintro hnil
        rw [hnil] at hfull
        exact absurd hfull (Nat.ne_of_lt hcap)
      obtain ⟨b, hb, hold⟩ := oldestIdx_spec age hsome
      exact renewed_set hnodup hb (.inr ⟨hkey, hfull, hold⟩)

theorem LatestOf.renew (h : LatestOf key t log) (hcap : 0 < cap) (age : α → Nat) (now : Nat) :
    LatestOf key (t.renew key age fresh) ((fresh, now) :: log) where
  distinct := (renewed h.distinct hcap).distinct
  latest r hr := by
    rcases (renewed h.distinct hcap).rows r hr with rfl | ⟨hr, hne⟩
    · exact ⟨now, by rw [lastNote_cons, if_pos rfl]⟩
    · rw [lastNote_cons, if_neg (Ne.symm hne)]
      exact h.latest r hr

/-- A note keeps what the table has of the log, as long as the ages are those of the notes. -/
theorem RecallsLatest.renew (h : RecallsLatest key t log) (hcap : 0 < cap) (hlog : ∀ m ∈ log, m.2 ≤ now)
    (hage : ∀ r ∈ t.rows, ∀ m, lastNote key (key r) log = some m → age r + m.2 = now) :
    RecallsLatest key (t.renew key age fresh) ((fresh, now) :: log) := by
  have hrenewed : Renewed key age fresh t (t.renew key age fresh) := renewed h.distinct hcap
  refine ⟨h.toLatestOf.renew hcap age now, fun k n hn => ?_⟩
  by_cases hk : key fresh = k
  · exact .inl (hk ▸ List.mem_map_of_mem hrenewed.fresh)
  rw [lastNote_cons, if_neg hk] at hn
  -- the rows are noted no earlier, if the old ones are
  have hlater (hold : ∀ r ∈ t.rows, ∀ m, lastNote key (key r) log = some m → n.2 ≤ m.2) :
      ∀ r ∈ (t.renew key age fresh).rows, ∀ m,
        lastNote key (key r) ((fresh, now) :: log) = some m → n.2 ≤ m.2 := by
    intro r hr m hm
    rw [lastNote_cons] at hm
    split at hm
    · cases hm
      exact hlog n (lastNote_mem hn)
    · rename_i hne
      rcases hrenewed.rows r hr with rfl | ⟨hr, -⟩
      · exact absurd rfl hne
      · exact hold r hr m hm
  rcases h.displaced k n hn with hmem | ⟨hfull, hold⟩
  · by_cases hkept : k ∈ (t.renew key age fresh).rows.map key
    · exact .inl hkept
    obtain ⟨y, hy, rfl⟩ := List.mem_map.mp hmem
    obtain ⟨hfull, holdest⟩ := hrenewed.lost y hy hkept
    refine .inr ⟨hfull, hlater fun r hr m hm => ?_⟩
    have hages := holdest r hr
    have hr' := hage r hr m hm
    have hy' := hage y hy n hn
    omega
  · exact .inr ⟨hrenewed.full hfull, hlater hold⟩

/-! ## What is found -/

/-- A row that is found is the last note of its key. -/
theorem LatestOf.find_some (h : LatestOf key t log) {k : κ} {r : α}
    (hr : t.rows.find? (fun r => key r == k) = some r) :
    ∃ time, lastNote key k log = some (r, time) := by
  have hk : key r = k := by simpa using List.find?_some hr
  exact hk ▸ h.latest r (List.mem_of_find?_eq_some hr)

/-- As many keys as the table has rows were noted no earlier than the last note of this one. -/
def Displaced (key : α → κ) (cap : Nat) (log : List (α × Nat)) (k : κ) : Prop :=
  ∃ n, lastNote key k log = some n ∧ ∃ ks : List κ, ks.Nodup ∧ ks.length = cap ∧ k ∉ ks ∧
    ∀ k' ∈ ks, ∃ m, lastNote key k' log = some m ∧ n.2 ≤ m.2

/-- Nothing is displaced by fewer notes than there are rows. -/
theorem Displaced.length_lt {k : κ} (h : Displaced key cap log k) : cap < log.length := by
  obtain ⟨n, hn, ks, hnodup, hlength, hk, hks⟩ := h
  have hsub : k :: ks ⊆ log.map fun m => key m.1 := by
    have hmem {k' : κ} {m : α × Nat} (hm : lastNote key k' log = some m) :
        k' ∈ log.map fun m => key m.1 := lastNote_key hm ▸ List.mem_map_of_mem (lastNote_mem hm)
    intro k' hk'
    rcases List.mem_cons.mp hk' with rfl | hk'
    · exact hmem hn
    · obtain ⟨m, hm, -⟩ := hks k' hk'
      exact hmem hm
  have hle := List.Nodup.length_le_of_subset (List.nodup_cons.mpr ⟨hk, hnodup⟩) hsub
  rw [List.length_map, List.length_cons] at hle
  omega

/-- A key is found until it is displaced. -/
theorem RecallsLatest.find_kept (h : RecallsLatest key t log) {k : κ} {n : α × Nat}
    (hn : lastNote key k log = some n) (hk : ¬Displaced key cap log k) :
    t.rows.find? (fun r => key r == k) = some n.1 := by
  cases hfind : t.rows.find? (fun r => key r == k) with
  | some r =>
    obtain ⟨time, hr⟩ := h.toLatestOf.find_some hfind
    rw [hn] at hr
    cases hr
    rfl
  | none =>
    have habsent : k ∉ t.rows.map key := by
      rw [List.mem_map]
      rintro ⟨r, hr, rfl⟩
      simpa using List.find?_eq_none.mp hfind r hr
    obtain ⟨hcap, hlater⟩ := (h.displaced k n hn).resolve_left habsent
    refine absurd ⟨n, hn, t.rows.map key, h.distinct, by simpa using hcap, habsent, ?_⟩ hk
    intro k' hk'
    obtain ⟨r, hr, rfl⟩ := List.mem_map.mp hk'
    obtain ⟨time, htime⟩ := h.latest r hr
    exact ⟨_, htime, hlater r hr _ htime⟩

/-! ## Notes under a clock that wraps -/

variable {stamp : α → UInt32}

/-- The age of a row, as the clock measures it. -/
def ageAt (stamp : α → UInt32) (now : UInt32) (r : α) : Nat := (now - stamp r).toNat

theorem ageAt_clock {r : α} {time : Nat} (hstamp : stamp r = clock time) (hpast : time ≤ now)
    (hturn : now < time + CLOCK_PERIOD) : ageAt stamp (clock now) r + time = now := by
  rw [ageAt, hstamp, clock_sub hpast, Nat.mod_eq_of_lt (by omega)]
  omega

/-- The notes, in order. -/
def noteAll (key : α → κ) (stamp : α → UInt32) (t : Table cap α) (notes : List (α × Nat)) :
    Table cap α :=
  notes.foldl (fun t n => t.renew key (ageAt stamp (clock n.2)) n.1) t

/-- Notes in the order of their times, within one turn of the clock, and stamped with it. -/
structure InTime (stamp : α → UInt32) (notes : List (α × Nat)) : Prop where
  stamped : ∀ n ∈ notes, stamp n.1 = clock n.2
  ordered : notes.Pairwise fun m n => m.2 ≤ n.2
  turn : ∀ m ∈ notes, ∀ n ∈ notes, n.2 < m.2 + CLOCK_PERIOD

/-- Whatever is noted, the rows are the last notes. -/
theorem latestOf_notes (hcap : 0 < cap) (notes : List (α × Nat)) :
    LatestOf key (noteAll key stamp (.empty : Table cap α) notes) notes.reverse := by
  induction notes using List.reverseRecOn with
  | nil => exact .empty
  | append_singleton notes n ih =>
    rw [noteAll, List.foldl_concat, List.reverse_concat]
    exact ih.renew hcap _ _

/-- Whatever is noted in time, the table recalls. -/
theorem recalls_notes (hcap : 0 < cap) {notes : List (α × Nat)} (h : InTime stamp notes) :
    RecallsLatest key (noteAll key stamp (.empty : Table cap α) notes) notes.reverse := by
  induction notes using List.reverseRecOn with
  | nil => exact .empty
  | append_singleton notes n ih =>
    have hmem (m : α × Nat) (hm : m ∈ notes) : m ∈ notes ++ [n] := List.mem_append_left _ hm
    have hn : n ∈ notes ++ [n] := by simp
    obtain ⟨hordered, -, hlast⟩ := List.pairwise_append.mp h.ordered
    have hbefore := ih ⟨fun m hm => h.stamped m (hmem m hm), hordered,
      fun m hm m' hm' => h.turn m (hmem m hm) m' (hmem m' hm')⟩
    have hpast : ∀ m ∈ notes.reverse, m.2 ≤ n.2 := fun m hm =>
      hlast m (List.mem_reverse.mp hm) n (List.mem_singleton_self n)
    rw [noteAll, List.foldl_concat, List.reverse_concat]
    refine hbefore.renew hcap hpast fun r hr m hm => ?_
    obtain ⟨time, htime⟩ := hbefore.latest r hr
    rw [htime] at hm
    cases hm
    have hin := lastNote_mem htime
    have hin' := hmem _ (List.mem_reverse.mp hin)
    exact ageAt_clock (h.stamped _ hin') (hpast _ hin) (h.turn _ hin' _ hn)

end

end Meshrustic
