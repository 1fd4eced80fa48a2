import Meshrustic.Topology.Routes
import Meshrustic.Topology.Transfer

/-!
# Moving downstream rows (`mesh-routing/src/graph/downstream.rs:199-434`)

`transfer_downstream` writes each row of the old relay again under the new one
and drops the old ones at the end. Until then a row and its copy both take a
place, so a move needs room of its own; and the copy of a row for the new relay
itself is a row that a plain update would refuse.

Results:
* `Inv`: each destination names a relay once, and none is its own relay.
* `transfer_moves_rows`: with room the move is what it should be exactly if no
  row of the old relay is for the new one; every other write keeps `Inv`.
* `full_table_gives_up`: a full table gives up the oldest row for the first
  copy, whoever it serves.
-/
namespace Meshrustic.Topology

open Meshrustic.Graph Meshrustic.Relay

namespace DownstreamTable

/-- Each destination names a relay once, and none is its own relay. That there
are at most `MAX_DOWNSTREAM` rows is in the type. -/
structure Inv (ds : DownstreamTable) : Prop where
  distinct : ds.keys.Nodup
  ends : ∀ k ∈ ds.keys, k.1 ≠ 0 ∧ k.2 ≠ 0 ∧ k.1 ≠ k.2

section

variable {ds : DownstreamTable} {row : DownstreamRow}

theorem mem_keys {r : DownstreamRow} (h : r ∈ ds.entries.rows) : (r.destination, r.relay) ∈ ds.keys :=
  List.mem_map_of_mem h

theorem upsertEntry_inv (h : ds.Inv) (hdest : row.destination ≠ 0) (hrelay : row.relay ≠ 0)
    (hne : row.destination ≠ row.relay) : (ds.upsertEntry row).Inv where
  distinct := by
    by_cases hroom : (row.destination, row.relay) ∈ ds.keys ∨ ds.keys.length < MAX_DOWNSTREAM
    · rw [upsertEntry_keys hroom]
      split
      · exact h.distinct
      · rename_i hmem
        rw [List.nodup_append]
        refine ⟨h.distinct, List.nodup_singleton _, fun a ha b hb heq => hmem ?_⟩
        rw [← List.mem_singleton.mp hb, ← heq]
        exact ha
    · obtain ⟨hmem, hfull⟩ := not_or.mp hroom
      rw [upsertEntry_keys_full hmem hfull]
      exact h.distinct.set hmem
  ends k hk := by
    rcases mem_upsertEntry.2 k hk with rfl | hk
    · exact ⟨hdest, hrelay, hne⟩
    · exact h.ends k hk

theorem swapOut_inv (h : ds.Inv) (p : DownstreamRow → Bool) :
    (⟨ds.entries.swapOut p ds.entries.rows.length 0⟩ : DownstreamTable).Inv where
  distinct := by
    have hperm := (@Table.swapOut_all _ _ p ds.entries).map
      fun r : DownstreamRow => (r.destination, r.relay)
    exact hperm.nodup_iff.mpr (h.distinct.sublist (List.filter_sublist.map _))
  ends k hk := by
    obtain ⟨r, hr, rfl⟩ := List.mem_map.mp hk
    exact h.ends _ (mem_keys ((Table.mem_swapOut r).mp hr).1)

theorem updateInner_inv {Etx : Type} (F : F32 Etx) (h : ds.Inv) (myNode destination relay : UInt32)
    (totalCost : Etx) (nowMs : UInt32) (direct : Bool) (viaRadio : UInt8) (listLearned : Bool) :
    (ds.updateInner F myNode destination relay totalCost nowMs direct viaRadio listLearned).Inv := by
  unfold updateInner
  split
  · exact h
  rename_i hends
  split
  · exact h
  · simp only [Bool.or_eq_true, beq_iff_eq, not_or] at hends
    exact upsertEntry_inv h hends.1.1.1.1 hends.1.1.1.2 hends.1.1.2

theorem updateExclusive_inv {Etx : Type} (F : F32 Etx) (h : ds.Inv)
    (myNode destination relay : UInt32) (totalCost : Etx) (nowMs : UInt32) (direct : Bool)
    (viaRadio : UInt8) :
    (ds.updateExclusive F myNode destination relay totalCost nowMs direct viaRadio).Inv :=
  updateInner_inv F (swapOut_inv h _) myNode destination relay totalCost nowMs direct viaRadio false

/-- A row under another key is not touched, if nothing has to be given up. -/
theorem mem_upsertEntry_other {r : DownstreamRow}
    (hne : (r.destination, r.relay) ≠ (row.destination, row.relay))
    (hroom : (row.destination, row.relay) ∈ ds.keys ∨ ds.keys.length < MAX_DOWNSTREAM) :
    r ∈ (ds.upsertEntry row).entries.rows ↔ r ∈ ds.entries.rows := by
  unfold upsertEntry
  cases hfind : ds.entries.rows.findIdx? fun r =>
      r.destination == row.destination && r.relay == row.relay with
  | some i =>
    obtain ⟨x, hx, hkey⟩ := findIdx_key hfind
    dsimp only
    rw [hx]
    refine mem_set_other hx (fun heq => hne ?_) (fun heq => hne ?_)
    · rw [heq]
    · rw [heq, hkey]
  | none =>
    have hmem := not_mem_of_findIdx hfind
    dsimp only
    cases hpush : ds.entries.push row with
    | some entries =>
      change r ∈ entries.rows ↔ _
      rw [Table.push_rows hpush, List.mem_append, List.mem_singleton, or_iff_left]
      rintro rfl
      exact hne rfl
    | none =>
      have hfull := Table.push_none hpush
      have hlt := hroom.resolve_left hmem
      rw [keys_length] at hlt
      omega

end

/-! ## A move with room -/

/-- The rows of the old relay find room for their copies. -/
def HasRoom (ds : DownstreamTable) (oldRelay newRelay : UInt32) : Prop :=
  (∀ k ∈ ds.keys, k.2 ≠ oldRelay) ∨
    ds.keys.length + ds.toMove oldRelay newRelay ds.keys ≤ MAX_DOWNSTREAM

/-- What moving the rows of one relay to another has to do. -/
structure Moved (ds ds' : DownstreamTable) (oldRelay newRelay : UInt32) : Prop where
  inv : ds'.Inv
  gone : ∀ r ∈ ds'.entries.rows, r.relay ≠ oldRelay
  others : ∀ r : DownstreamRow, r.relay ≠ oldRelay → r.relay ≠ newRelay →
    (r ∈ ds'.entries.rows ↔ r ∈ ds.entries.rows)
  served : ∀ r ∈ ds.entries.rows, r.relay = oldRelay → r.destination ≠ newRelay →
    ∃ r' ∈ ds'.entries.rows, r'.destination = r.destination ∧ r'.relay = newRelay

section

variable {oldRelay newRelay nowMs : UInt32} {ds : DownstreamTable}

/-- A row of the old relay under the new one. -/
def copyOf (newRelay nowMs : UInt32) (r : DownstreamRow) : DownstreamRow :=
  { r with relay := newRelay, lastUpdateMs := nowMs }

theorem moveRow_cases (ds : DownstreamTable) (i : Nat) :
    moveRow oldRelay newRelay nowMs ds i = ds ∨
      ∃ r, ds.entries.rows[i]? = some r ∧ r.relay = oldRelay ∧
        moveRow oldRelay newRelay nowMs ds i = ds.upsertEntry (copyOf newRelay nowMs r) := by
  unfold moveRow
  split
  · exact .inl rfl
  · rename_i r hr
    split
    · exact .inl rfl
    · rename_i hrelay
      exact .inr ⟨r, hr, by simpa using hrelay, rfl⟩

theorem moveRow_copies {i : Nat} {r : DownstreamRow} (hr : ds.entries.rows[i]? = some r)
    (hold : r.relay = oldRelay) :
    moveRow oldRelay newRelay nowMs ds i = ds.upsertEntry (copyOf newRelay nowMs r) := by
  unfold moveRow
  rw [hr]
  dsimp only
  rw [if_neg (by simpa using hold)]
  rfl

theorem HasRoom.le (h : ds.HasRoom oldRelay newRelay) :
    ds.keys.length + ds.toMove oldRelay newRelay ds.keys ≤ MAX_DOWNSTREAM := by
  rcases h with hnone | hroom
  · have hzero : ds.toMove oldRelay newRelay ds.keys = 0 :=
      List.countP_eq_zero.mpr fun k hk => by simp [hnone k hk]
    have hle := @keys_le ds
    omega
  · exact hroom

/-- The loop with room, by the keys it is done with: a row of another relay is passed over,
a row of the old relay is copied. -/
theorem moveRows_done {P : List (UInt32 × UInt32) → DownstreamTable → Prop}
    (hskip : ∀ done k ds, k.2 ≠ oldRelay → P done ds → P (done ++ [k]) ds)
    (hstep : ∀ done ds r, r ∈ ds.entries.rows → r.relay = oldRelay →
      ((r.destination, newRelay) ∈ ds.keys ∨ ds.keys.length < MAX_DOWNSTREAM) → P done ds →
        P (done ++ [(r.destination, r.relay)]) (ds.upsertEntry (copyOf newRelay nowMs r)))
    {todo : List (UInt32 × UInt32)} :
    ∀ {ds : DownstreamTable} {done added : List (UInt32 × UInt32)},
      ds.keys = done ++ (todo ++ added) →
      ds.keys.length + toMove ds oldRelay newRelay todo ≤ MAX_DOWNSTREAM → P done ds →
      P (done ++ todo)
        ((List.range' done.length todo.length).foldl (moveRow oldRelay newRelay nowMs) ds) := by
  induction todo with
  | nil =>
    intro ds done added _ _ h
    rw [List.append_nil]
    exact h
  | cons k todo ih =>
    intro ds done added hkeys hroom h
    have hat : ds.keys[done.length]? = some k := by simp [hkeys]
    obtain ⟨extra, hturn, -, hroom'⟩ := @moveRow_step oldRelay newRelay nowMs ds _ _ _ hat hroom
    rw [← hturn] at hroom'
    have hkeys' : (moveRow oldRelay newRelay nowMs ds done.length).keys =
        (done ++ [k]) ++ (todo ++ (added ++ extra)) := by
      rw [hturn, hkeys]
      simp
    have hkept : P (done ++ [k]) (moveRow oldRelay newRelay nowMs ds done.length) := by
      by_cases hold : k.2 = oldRelay
      · have hrow := hat
        unfold keys at hrow
        rw [List.getElem?_map, Option.map_eq_some_iff] at hrow
        obtain ⟨r, hr, rfl⟩ := hrow
        change r.relay = oldRelay at hold
        rw [moveRow_copies hr hold]
        refine hstep done ds r (List.mem_of_getElem? hr) hold ?_ h
        by_cases hmem : (r.destination, newRelay) ∈ ds.keys
        · exact .inl hmem
        · right
          have hcount : toMove ds oldRelay newRelay ((r.destination, r.relay) :: todo) =
              toMove ds oldRelay newRelay todo + 1 := List.countP_cons_of_pos (by simp [hold, hmem])
          omega
      · rw [moveRow_other fun k' hk' => ?_]
        · exact hskip done k ds hold h
        · rw [hat, Option.some.injEq] at hk'
          exact hk' ▸ hold
    have hrest := ih hkeys' hroom' hkept
    rw [List.length_append, List.length_singleton, List.append_assoc] at hrest
    rw [List.length_cons, List.range'_succ, List.foldl_cons]
    exact hrest

/-- The loop over all rows. -/
theorem moveAll_done {P : List (UInt32 × UInt32) → DownstreamTable → Prop}
    (hskip : ∀ done k ds, k.2 ≠ oldRelay → P done ds → P (done ++ [k]) ds)
    (hstep : ∀ done ds r, r ∈ ds.entries.rows → r.relay = oldRelay →
      ((r.destination, newRelay) ∈ ds.keys ∨ ds.keys.length < MAX_DOWNSTREAM) → P done ds →
        P (done ++ [(r.destination, r.relay)]) (ds.upsertEntry (copyOf newRelay nowMs r)))
    (hroom : ds.HasRoom oldRelay newRelay) (h : P [] ds) :
    P ds.keys ((List.range ds.entries.rows.length).foldl (moveRow oldRelay newRelay nowMs) ds) := by
  have := @moveRows_done oldRelay newRelay nowMs P hskip hstep ds.keys ds [] [] (by simp) hroom.le h
  rwa [List.length_nil, List.nil_append, keys_length, ← List.range_eq_range'] at this

/-- What a copy with room keeps, the loop over all rows keeps. -/
theorem moveAll_keeps {P : DownstreamTable → Prop}
    (hstep : ∀ ds r, r ∈ ds.entries.rows → r.relay = oldRelay →
      ((r.destination, newRelay) ∈ ds.keys ∨ ds.keys.length < MAX_DOWNSTREAM) → P ds →
        P (ds.upsertEntry (copyOf newRelay nowMs r)))
    (hroom : ds.HasRoom oldRelay newRelay) (h : P ds) :
    P ((List.range ds.entries.rows.length).foldl (moveRow oldRelay newRelay nowMs) ds) :=
  @moveAll_done oldRelay newRelay nowMs ds (fun _ ds => P ds) (fun _ _ _ _ h => h)
    (fun _ => hstep) hroom h

/-- The row is there afterwards, with its time. -/
theorem upsertEntry_has (row : DownstreamRow) :
    ∃ r ∈ (ds.upsertEntry row).entries.rows, r.destination = row.destination ∧
      r.relay = row.relay ∧ r.lastUpdateMs = row.lastUpdateMs := by
  unfold upsertEntry
  cases hfind : ds.entries.rows.findIdx? fun r =>
      r.destination == row.destination && r.relay == row.relay with
  | some i =>
    obtain ⟨x, hx, -⟩ := findIdx_key hfind
    obtain ⟨hi, -⟩ := List.getElem?_eq_some_iff.mp hx
    dsimp only
    rw [hx]
    exact ⟨_, List.mem_set hi _, rfl, rfl, rfl⟩
  | none =>
    dsimp only
    cases hpush : ds.entries.push row with
    | some entries =>
      refine ⟨row, ?_, rfl, rfl, rfl⟩
      change row ∈ entries.rows
      rw [Table.push_rows hpush]
      exact List.mem_append_right _ List.mem_cons_self
    | none =>
      have hfull := Table.push_none hpush
      refine ⟨row, List.mem_set (oldestIdx_lt _ ?_) _, rfl, rfl, rfl⟩
      rw [hfull]
      exact (by decide : 0 < MAX_DOWNSTREAM)

theorem mem_transfer (hold : oldRelay ≠ 0) (hnew : newRelay ≠ 0) (hne : oldRelay ≠ newRelay)
    {r : DownstreamRow} :
    r ∈ (ds.transferDownstream oldRelay newRelay nowMs).entries.rows ↔
      r ∈ ((List.range ds.entries.rows.length).foldl (moveRow oldRelay newRelay nowMs)
        ds).entries.rows ∧ r.relay ≠ oldRelay := by
  rw [transferDownstream_eq hold hnew hne]
  exact (Table.mem_swapOut r).trans (and_congr_right fun _ => by simp)

/-- The destinations of the old relay have rows of this moment under the new one. -/
theorem transfer_fresh (hold : oldRelay ≠ 0) (hnew : newRelay ≠ 0) (hne : oldRelay ≠ newRelay)
    (hroom : ds.HasRoom oldRelay newRelay) {q : DownstreamRow} (hq : q ∈ ds.entries.rows)
    (hrelay : q.relay = oldRelay) :
    ∃ r ∈ (ds.transferDownstream oldRelay newRelay nowMs).entries.rows,
      r.destination = q.destination ∧ r.relay = newRelay ∧ r.lastUpdateMs = nowMs := by
  have hfresh := @moveAll_done oldRelay newRelay nowMs ds
    (fun done ds => ∀ k ∈ done, k.2 = oldRelay → ∃ r ∈ ds.entries.rows, r.destination = k.1 ∧
      r.relay = newRelay ∧ r.lastUpdateMs = nowMs)
    (fun done k ds hother h k' hk' hold' => by
      rcases List.mem_append.mp hk' with hk' | hk'
      · exact h k' hk' hold'
      · rw [List.mem_singleton.mp hk'] at hold'
        exact absurd hold' hother)
    (fun done ds r hr hrold hrest h k' hk' hold' => by
      obtain ⟨c, hc, hcdest, hcrelay, hcms⟩ := @upsertEntry_has ds (copyOf newRelay nowMs r)
      by_cases hdest : k'.1 = r.destination
      · exact ⟨c, hc, hcdest.trans hdest.symm, hcrelay, hcms⟩
      · rcases List.mem_append.mp hk' with hk' | hk'
        · -- a copy made before is of another destination
          obtain ⟨r', hr', hdest', hrelay', hms'⟩ := h k' hk' hold'
          refine ⟨r', (mem_upsertEntry_other (fun heq => hdest ?_) hrest).mpr hr', hdest', hrelay', hms'⟩
          rw [← hdest']
          exact (Prod.mk.inj heq).1
        · rw [List.mem_singleton.mp hk'] at hdest
          exact absurd rfl hdest)
    hroom (fun k hk => absurd hk List.not_mem_nil)
  obtain ⟨r, hr, hdest, hnewRelay, hms⟩ := hfresh _ (mem_keys hq) hrelay
  exact ⟨r, (mem_transfer hold hnew hne).mpr ⟨hr, by rw [hnewRelay]; exact Ne.symm hne⟩, hdest,
    hnewRelay, hms⟩

/-- A row that is neither of the old relay nor in the place of a copy is not touched. -/
theorem transfer_others (hold : oldRelay ≠ 0) (hnew : newRelay ≠ 0) (hne : oldRelay ≠ newRelay)
    (hroom : ds.HasRoom oldRelay newRelay) {r : DownstreamRow} (hr : r.relay ≠ oldRelay)
    (hcopied : ∀ q ∈ ds.entries.rows, q.relay = oldRelay → r.relay = newRelay →
      q.destination ≠ r.destination) :
    r ∈ (ds.transferDownstream oldRelay newRelay nowMs).entries.rows ↔ r ∈ ds.entries.rows := by
  have hloop := @moveAll_keeps oldRelay newRelay nowMs ds
    (fun ds' => ∀ r : DownstreamRow, (∀ q ∈ ds.entries.rows, q.relay = oldRelay → r.relay = newRelay →
      q.destination ≠ r.destination) → (r ∈ ds'.entries.rows ↔ r ∈ ds.entries.rows))
    (fun ds' q hq hqold hrest h x hx => by
      -- what is copied is a row of the table as it was
      have hmem : q ∈ ds.entries.rows :=
        (h q fun _ _ _ hqnew => absurd (hqold.symm.trans hqnew) hne).mp hq
      rw [mem_upsertEntry_other (fun heq => ?_) hrest]
      · exact h x hx
      · obtain ⟨hdest, hrelay⟩ := Prod.mk.inj heq
        exact hx q hmem hqold hrelay hdest.symm)
    hroom fun _ _ => Iff.rfl
  rw [mem_transfer hold hnew hne, hloop r hcopied]
  exact and_iff_left hr

/-- Rows of another relay than the new one are not touched before the old ones
go, and the table stays in order unless the new relay gets a row for itself. -/
theorem moveAll_rows (hinv : ds.Inv) (hnew : newRelay ≠ 0) (hne : oldRelay ≠ newRelay)
    (hself : ∀ r ∈ ds.entries.rows, r.relay = oldRelay → r.destination ≠ newRelay)
    (hroom : ds.HasRoom oldRelay newRelay) :
    let ds' := (List.range ds.entries.rows.length).foldl (moveRow oldRelay newRelay nowMs) ds
    ds'.Inv ∧ ∀ r, r.relay ≠ newRelay → (r ∈ ds'.entries.rows ↔ r ∈ ds.entries.rows) := by
  refine @moveAll_keeps oldRelay newRelay nowMs ds
    (fun ds' => ds'.Inv ∧ ∀ r, r.relay ≠ newRelay → (r ∈ ds'.entries.rows ↔ r ∈ ds.entries.rows))
    (fun ds' r hr hold hrest h => ?_) hroom ⟨hinv, fun r _ => Iff.rfl⟩
  obtain ⟨hinv', hrows⟩ := h
  have hmem : r ∈ ds.entries.rows := (hrows r (hold ▸ hne)).mp hr
  refine ⟨upsertEntry_inv hinv' (hinv'.ends _ (mem_keys hr)).1 hnew (hself r hmem hold), ?_⟩
  intro x hx
  rw [mem_upsertEntry_other (fun heq => hx (Prod.mk.inj heq).2) hrest]
  exact hrows x hx

/-- With room, the rows are moved exactly if the new relay is another node and
none of the rows is for it. -/
theorem transfer_moved_iff (hinv : ds.Inv) (hroom : ds.HasRoom oldRelay newRelay) :
    Moved ds (ds.transferDownstream oldRelay newRelay nowMs) oldRelay newRelay ↔
      ∀ r ∈ ds.entries.rows, r.relay = oldRelay →
        newRelay ≠ 0 ∧ newRelay ≠ oldRelay ∧ r.destination ≠ newRelay := by
  by_cases hends : oldRelay ≠ 0 ∧ newRelay ≠ 0 ∧ oldRelay ≠ newRelay
  · obtain ⟨hold, hnew, hne⟩ := hends
    obtain ⟨-, hserved, hgone⟩ := @transferDownstream_keys oldRelay newRelay nowMs ds hold hnew hne
      hroom
    constructor
    · intro hmoved r hr hrelay
      refine ⟨hnew, Ne.symm hne, fun hdest => ?_⟩
      have hkey := hserved _ (mem_keys hr) hrelay
      exact (hmoved.inv.ends _ hkey).2.2 hdest
    · intro hclean
      obtain ⟨hinv', hrows⟩ := @moveAll_rows oldRelay newRelay nowMs ds hinv hnew hne
        (fun r hr hrelay => (hclean r hr hrelay).2.2) hroom
      have hcleared := @mem_transfer oldRelay newRelay nowMs ds hold hnew hne
      refine ⟨?_, fun r hr => (hcleared.mp hr).2, fun r hro hrn => ?_, fun r hr hrelay _ => ?_⟩
      · rw [transferDownstream_eq hold hnew hne]
        exact swapOut_inv hinv' _
      · rw [hcleared, hrows r hrn]
        exact and_iff_left hro
      · obtain ⟨r', hr', hkey⟩ := List.mem_map.mp (hserved _ (mem_keys hr) hrelay)
        rw [Prod.mk.injEq] at hkey
        exact ⟨r', hr', hkey⟩
  · have hsame : ds.transferDownstream oldRelay newRelay nowMs = ds := by
      unfold transferDownstream
      rw [if_pos]
      simp only [Bool.or_eq_true, beq_iff_eq]
      tauto
    rw [hsame]
    constructor
    · intro hmoved r hr hrelay
      exact absurd hrelay (hmoved.gone r hr)
    · intro hclean
      have hnone : ∀ r ∈ ds.entries.rows, r.relay ≠ oldRelay := by
        intro r hr hrelay
        have hzero := (hinv.ends _ (mem_keys hr)).2.1
        obtain ⟨hnew, hne, -⟩ := hclean r hr hrelay
        exact hends ⟨hrelay ▸ hzero, hnew, Ne.symm hne⟩
      exact ⟨hinv, hnone, fun _ _ _ => Iff.rfl, fun r hr hrelay => absurd hrelay (hnone r hr)⟩

/-! ## A move without room -/

/-- The loop writes rows of the new relay only. -/
theorem moveRow_mem {i : Nat} {k : UInt32 × UInt32}
    (hk : k ∈ (moveRow oldRelay newRelay nowMs ds i).keys) : k.2 = newRelay ∨ k ∈ ds.keys := by
  rcases @moveRow_cases oldRelay newRelay nowMs ds i with hsame | ⟨r, -, -, hcopy⟩
  · rw [hsame] at hk
    exact .inr hk
  · rw [hcopy] at hk
    exact (mem_upsertEntry.2 k hk).imp_left fun h => by rw [h]; rfl

theorem moveRows_mem {k : UInt32 × UInt32} (is : List Nat) {ds : DownstreamTable}
    (hk : k ∈ (is.foldl (moveRow oldRelay newRelay nowMs) ds).keys) :
    k.2 = newRelay ∨ k ∈ ds.keys := by
  induction is generalizing ds with
  | nil => exact .inr hk
  | cons i is ih =>
    rcases ih hk with hnew | hmem
    · exact .inl hnew
    · exact moveRow_mem hmem

/-- The first copy takes the place of the oldest row. -/
theorem moveRows_give_up {o : DownstreamRow} (hdistinct : ds.keys.Nodup)
    (hfull : ¬ds.keys.length < MAX_DOWNSTREAM) (hnone : ∀ k ∈ ds.keys, k.2 ≠ newRelay)
    (ho : ds.entries.rows[oldestIdx ds.entries.rows nowMs]? = some o) {is : List Nat}
    (his : ∃ i ∈ is, ∃ r, ds.entries.rows[i]? = some r ∧ r.relay = oldRelay) :
    (o.destination, o.relay) ∉ (is.foldl (moveRow oldRelay newRelay nowMs) ds).keys := by
  have hother : o.relay ≠ newRelay := hnone _ (mem_keys (List.mem_of_getElem? ho))
  induction is with
  | nil =>
    obtain ⟨i, hi, -⟩ := his
    cases hi
  | cons i is ih =>
    rw [List.foldl_cons]
    by_cases hcopies : ∃ r, ds.entries.rows[i]? = some r ∧ r.relay = oldRelay
    · obtain ⟨r, hr, hold⟩ := hcopies
      rw [moveRow_copies hr hold]
      intro hmem
      have hthere := (moveRows_mem is hmem).resolve_left hother
      have hfresh : (r.destination, newRelay) ∉ ds.keys := fun h => hnone _ h rfl
      have hkeys : (ds.upsertEntry (copyOf newRelay nowMs r)).keys =
          ds.keys.set (oldestIdx ds.entries.rows nowMs) (r.destination, newRelay) :=
        upsertEntry_keys_full hfresh hfull
      rw [hkeys] at hthere
      refine not_mem_set hdistinct ?_ (fun heq => hother (Prod.mk.inj heq).2) hthere
      unfold keys
      rw [List.getElem?_map, ho]
      rfl
    · have hsame : moveRow oldRelay newRelay nowMs ds i = ds := by
        refine moveRow_other fun k hk hold => hcopies ?_
        unfold keys at hk
        rw [List.getElem?_map, Option.map_eq_some_iff] at hk
        obtain ⟨r, hr, rfl⟩ := hk
        exact ⟨r, hr, hold⟩
      rw [hsame]
      refine ih ?_
      obtain ⟨j, hj, hrow⟩ := his
      rcases List.mem_cons.mp hj with rfl | hj
      · exact absurd hrow hcopies
      · exact ⟨j, hj, hrow⟩

/-- A full table gives up its oldest row for the first copy, so the move fails
if that row is for somebody else. -/
theorem full_table_gives_up (hinv : ds.Inv) (hfull : ¬ds.keys.length < MAX_DOWNSTREAM)
    (hnew : newRelay ≠ 0) (hne : oldRelay ≠ newRelay) (hnone : ∀ k ∈ ds.keys, k.2 ≠ newRelay)
    (hsome : ∃ r ∈ ds.entries.rows, r.relay = oldRelay) {o : DownstreamRow}
    (ho : ds.entries.rows[oldestIdx ds.entries.rows nowMs]? = some o) (hother : o.relay ≠ oldRelay) :
    ¬Moved ds (ds.transferDownstream oldRelay newRelay nowMs) oldRelay newRelay := by
  intro hmoved
  obtain ⟨r, hr, hold⟩ := hsome
  have hzero : oldRelay ≠ 0 := hold ▸ (hinv.ends _ (mem_keys hr)).2.1
  have hmem := List.mem_of_getElem? ho
  have hkept := mem_keys ((hmoved.others o hother (hnone _ (mem_keys hmem))).mpr hmem)
  rw [transferDownstream_eq hzero hnew hne, mem_clearForRelay] at hkept
  obtain ⟨i, hi, rfl⟩ := List.mem_iff_getElem.mp hr
  exact moveRows_give_up hinv.distinct hfull hnone ho
    ⟨i, List.mem_range.mpr hi, _, List.getElem?_eq_getElem hi, hold⟩ hkept.1

end

/-- Where its copies find room, a move is what it should be exactly if the new
relay is another node that none of the rows is for. In a full table it already
fails where the oldest row is somebody else's. Every other write keeps the
table in order. -/
theorem transfer_moves_rows {Etx : Type} (F : F32 Etx) (ds : DownstreamTable) (hinv : ds.Inv) :
    (∀ oldRelay newRelay nowMs, ds.HasRoom oldRelay newRelay →
      (Moved ds (ds.transferDownstream oldRelay newRelay nowMs) oldRelay newRelay ↔
        ∀ r ∈ ds.entries.rows, r.relay = oldRelay →
          newRelay ≠ 0 ∧ newRelay ≠ oldRelay ∧ r.destination ≠ newRelay)) ∧
      (∀ oldRelay newRelay nowMs o, ds.entries.rows.length = MAX_DOWNSTREAM → newRelay ≠ 0 →
        oldRelay ≠ newRelay → (∀ r ∈ ds.entries.rows, r.relay ≠ newRelay) →
        (∃ r ∈ ds.entries.rows, r.relay = oldRelay) →
        ds.entries.rows[oldestIdx ds.entries.rows nowMs]? = some o → o.relay ≠ oldRelay →
        ¬Moved ds (ds.transferDownstream oldRelay newRelay nowMs) oldRelay newRelay) ∧
      (∀ myNode destination relay totalCost nowMs direct viaRadio listLearned,
        (ds.updateInner F myNode destination relay totalCost nowMs direct viaRadio listLearned).Inv) ∧
      (∀ myNode destination relay totalCost nowMs direct viaRadio,
        (ds.updateExclusive F myNode destination relay totalCost nowMs direct viaRadio).Inv) ∧
      (∀ relay, (ds.clearForRelay relay).Inv) ∧
      (∀ destination, (ds.clearForDestination destination).Inv) ∧
      ∀ nowMs ttlMs relayInGraph, (ds.age nowMs ttlMs relayInGraph).1.Inv := by
  refine ⟨fun oldRelay newRelay nowMs hroom => transfer_moved_iff hinv hroom, ?_,
    updateInner_inv F hinv, updateExclusive_inv F hinv, fun relay => swapOut_inv hinv _,
    fun destination => swapOut_inv hinv _, fun nowMs ttlMs relayInGraph => swapOut_inv hinv _⟩
  intro oldRelay newRelay nowMs o hfull hnew hne hnone hsome ho hother
  refine full_table_gives_up hinv ?_ hnew hne (fun k hk => ?_) hsome ho hother
  · rw [keys_length]
    omega
  · obtain ⟨r, hr, rfl⟩ := List.mem_map.mp hk
    exact hnone r hr

/-! ## Two tables -/

/-- The row for a destination under a relay. -/
def servedBy (destination relay lastUpdateMs : UInt32) : DownstreamRow where
  destination := destination
  relay := relay
  costFixed := 100
  lastUpdateMs := lastUpdateMs
  viaRadio := 0
  listLearned := false

/-- Node 5 serves node 9 and node 7. -/
def smallTable : DownstreamTable := ⟨⟨[servedBy 9 5 1000, servedBy 7 5 1000], by decide⟩⟩

theorem smallTable_inv : smallTable.Inv where
  distinct := by decide
  ends k hk := by
    rcases List.mem_pair.mp hk with rfl | rfl
    · exact (by decide : (9 : UInt32) ≠ 0 ∧ (5 : UInt32) ≠ 0 ∧ (9 : UInt32) ≠ 5)
    · exact (by decide : (7 : UInt32) ≠ 0 ∧ (5 : UInt32) ≠ 0 ∧ (7 : UInt32) ≠ 5)

/-- Node 6 takes over. -/
theorem transfer_moves_sample :
    Moved smallTable (smallTable.transferDownstream 5 6 2000) 5 6 := by
  refine ((transfer_moves_rows hundredths smallTable smallTable_inv).1 5 6 2000
    (.inr (by decide))).mpr fun r hr _ => ⟨by decide, by decide, ?_⟩
  rcases List.mem_pair.mp hr with rfl | rfl
  · exact (by decide : (9 : UInt32) ≠ 6)
  · exact (by decide : (7 : UInt32) ≠ 6)

/-- Node 8 serves the first destination, node 5 all others. -/
def crowdedRow (i : Nat) : DownstreamRow :=
  servedBy (UInt32.ofNat (i + 100)) (if i = 0 then 8 else 5) 2000

def crowdedRows : List DownstreamRow := (List.range MAX_DOWNSTREAM).map crowdedRow

theorem crowdedRows_length : crowdedRows.length = MAX_DOWNSTREAM := by
  unfold crowdedRows
  rw [List.length_map, List.length_range]

/-- A full table. -/
def fullTable : DownstreamTable := ⟨⟨crowdedRows, Nat.le_of_eq crowdedRows_length⟩⟩

theorem fullTable_rows : fullTable.entries.rows = crowdedRows := by
  dsimp only [fullTable]

theorem mem_fullTable {r : DownstreamRow} :
    r ∈ fullTable.entries.rows ↔ ∃ i < MAX_DOWNSTREAM, crowdedRow i = r := by
  rw [fullTable_rows]
  unfold crowdedRows
  rw [List.mem_map]
  simp only [List.mem_range]

theorem crowdedRow_ends {i : Nat} (h : i < MAX_DOWNSTREAM) :
    (crowdedRow i).destination.toNat = i + 100 := by
  change (UInt32.ofNat (i + 100)).toNat = i + 100
  rw [UInt32.toNat_ofNat']
  unfold MAX_DOWNSTREAM at h
  omega

theorem crowdedRow_relay (i : Nat) : (crowdedRow i).relay = 8 ∨ (crowdedRow i).relay = 5 := by
  unfold crowdedRow servedBy
  dsimp only
  split
  · exact .inl rfl
  · exact .inr rfl

theorem fullTable_inv : fullTable.Inv where
  distinct := by
    unfold keys
    rw [fullTable_rows]
    unfold crowdedRows
    rw [List.map_map]
    refine List.Nodup.map_on (fun i hi j hj heq => ?_) List.nodup_range
    have hdest := congrArg UInt32.toNat (Prod.mk.inj heq).1
    rw [crowdedRow_ends (List.mem_range.mp hi), crowdedRow_ends (List.mem_range.mp hj)] at hdest
    omega
  ends k hk := by
    obtain ⟨r, hr, rfl⟩ := List.mem_map.mp hk
    obtain ⟨i, hi, rfl⟩ := mem_fullTable.mp hr
    have hdest := crowdedRow_ends hi
    have hbelow : ∀ n : UInt32, n.toNat < 100 → (crowdedRow i).destination ≠ n := by
      intro n hn heq
      rw [heq] at hdest
      omega
    rcases crowdedRow_relay i with hrelay | hrelay
    · rw [hrelay]
      exact ⟨hbelow 0 (by decide), (by decide : (8 : UInt32) ≠ 0), hbelow 8 (by decide)⟩
    · rw [hrelay]
      exact ⟨hbelow 0 (by decide), (by decide : (5 : UInt32) ≠ 0), hbelow 5 (by decide)⟩

/-- Where all rows are new, the first one counts as the oldest. -/
theorem oldestIdx_fresh {rows : List DownstreamRow} {nowMs : UInt32}
    (h : ∀ r ∈ rows, r.lastUpdateMs = nowMs) : oldestIdx rows nowMs = 0 := by
  have hscan : ∀ todo : List (DownstreamRow × Nat), (∀ row ∈ todo, row.1 ∈ rows) →
      todo.foldl (fun (best : Nat × UInt32) (row : DownstreamRow × Nat) =>
        if best.2 < nowMs - row.1.lastUpdateMs then (row.2, nowMs - row.1.lastUpdateMs) else best)
        (0, 0) = (0, 0) := by
    intro todo
    induction todo with
    | nil => exact fun _ => rfl
    | cons row todo ih =>
      intro htodo
      rw [List.foldl_cons, h _ (htodo row List.mem_cons_self), UInt32.sub_self,
        if_neg (UInt32.lt_irrefl _)]
      exact ih fun r hr => htodo r (List.mem_cons_of_mem _ hr)
  unfold oldestIdx
  rw [hscan]
  intro row hrow
  exact (List.mem_zipIdx' hrow).2 ▸ List.getElem_mem _

/-- A row for the new relay comes out as a row for itself, and a full table
loses the row of node 8. -/
theorem transfer_breaks_rows :
    (smallTable.Inv ∧ ¬Moved smallTable (smallTable.transferDownstream 5 7 2000) 5 7) ∧
      (fullTable.Inv ∧ ¬Moved fullTable (fullTable.transferDownstream 5 7 2000) 5 7) := by
  refine ⟨⟨smallTable_inv, fun hmoved => ?_⟩, fullTable_inv, ?_⟩
  · have hself : ((7, 7) : UInt32 × UInt32) ∈ (smallTable.transferDownstream 5 7 2000).keys := by
      decide +kernel
    exact (hmoved.inv.ends _ hself).2.2 rfl
  · have holdest : oldestIdx fullTable.entries.rows 2000 = 0 := oldestIdx_fresh fun r hr => by
      obtain ⟨i, -, rfl⟩ := mem_fullTable.mp hr
      rfl
    have hfirst : fullTable.entries.rows[0]? = some (crowdedRow 0) := by
      rw [fullTable_rows]
      unfold crowdedRows
      rw [List.getElem?_map, List.getElem?_range (by decide)]
      rfl
    refine @full_table_gives_up 5 7 2000 fullTable fullTable_inv ?_ (by decide) (by decide)
      (fun k hk => ?_) ⟨crowdedRow 1, mem_fullTable.mpr ⟨1, by decide, rfl⟩, rfl⟩ (crowdedRow 0)
      (by rw [holdest, hfirst]) (by decide)
    · rw [keys_length, fullTable_rows, crowdedRows_length]
      exact Nat.lt_irrefl _
    · obtain ⟨r, hr, rfl⟩ := List.mem_map.mp hk
      obtain ⟨i, -, rfl⟩ := mem_fullTable.mp hr
      rcases crowdedRow_relay i with hrelay | hrelay
      · rw [hrelay]
        exact (by decide : (8 : UInt32) ≠ 7)
      · rw [hrelay]
        exact (by decide : (5 : UInt32) ≠ 7)

end DownstreamTable

end Meshrustic.Topology
