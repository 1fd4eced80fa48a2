import Meshrustic.Topology.Arrays

/-!
# Handing a relay's rows over (`mesh-routing/src/graph/downstream.rs`)

A demotion writes one downstream row, "the victim is served by the parent", and
moves every row of the victim to the parent. The loop that moves them writes into
the table it walks, and a full table gives up its oldest row for each new one, so
what is left of the victim's rows is a question of room.

Results:
* `HandedOver`: what a demotion has to do to the table;
* `applyDemotion_handsOver`: it does that where `Fits` says the rows have room, or
  where the victim serves nobody.
-/
namespace Meshrustic.Topology

open Meshrustic.Relay

namespace DownstreamTable

/-- What the rows say: a destination, and the relay that serves it. -/
def keys (ds : DownstreamTable) : List (UInt32 × UInt32) :=
  ds.entries.rows.map fun r => (r.destination, r.relay)

section Rows

variable {ds : DownstreamTable} {row : DownstreamRow}

theorem keys_length : ds.keys.length = ds.entries.rows.length := List.length_map _

theorem keys_le : ds.keys.length ≤ MAX_DOWNSTREAM := by
  rw [keys_length]
  exact ds.entries.le

/-- The search of `upsertEntry` is a search for the key. -/
theorem findIdx_key {i : Nat}
    (h : ds.entries.rows.findIdx? (fun r => r.destination == row.destination && r.relay == row.relay)
      = some i) :
    ∃ r, ds.entries.rows[i]? = some r ∧ (row.destination, row.relay) = (r.destination, r.relay) := by
  obtain ⟨hi, hr, -⟩ := List.findIdx?_eq_some_iff_getElem.mp h
  simp only [Bool.and_eq_true, beq_iff_eq] at hr
  exact ⟨ds.entries.rows[i], List.getElem?_eq_getElem hi, by rw [hr.1, hr.2]⟩

theorem not_mem_of_findIdx
    (h : ds.entries.rows.findIdx? (fun r => r.destination == row.destination && r.relay == row.relay)
      = none) : (row.destination, row.relay) ∉ ds.keys := by
  intro hmem
  obtain ⟨r, hr, heq⟩ := List.mem_map.mp hmem
  have hmiss := List.findIdx?_eq_none_iff.mp h r hr
  rw [Prod.mk.injEq] at heq
  rw [heq.1, heq.2] at hmiss
  simp at hmiss

/-- A row that is there is written again; one that has room is appended. -/
theorem upsertEntry_keys
    (h : (row.destination, row.relay) ∈ ds.keys ∨ ds.keys.length < MAX_DOWNSTREAM) :
    (ds.upsertEntry row).keys =
      if (row.destination, row.relay) ∈ ds.keys then ds.keys
      else ds.keys ++ [(row.destination, row.relay)] := by
  unfold upsertEntry
  cases hfind : ds.entries.rows.findIdx? fun r =>
      r.destination == row.destination && r.relay == row.relay with
  | some i =>
    obtain ⟨r, hr, hkey⟩ := findIdx_key hfind
    have hmem : (row.destination, row.relay) ∈ ds.keys :=
      List.mem_map.mpr ⟨r, List.mem_of_getElem? hr, hkey.symm⟩
    rw [if_pos hmem]
    dsimp only
    rw [hr]
    exact keys_set_same (fun r : DownstreamRow => (r.destination, r.relay)) hr hkey
  | none =>
    have hmem := not_mem_of_findIdx hfind
    rw [if_neg hmem]
    dsimp only
    cases hpush : ds.entries.push row with
    | some entries =>
      change entries.rows.map _ = _
      rw [Table.push_rows hpush, List.map_append]
      rfl
    | none =>
      have hfull := Table.push_none hpush
      have hroom := h.resolve_left hmem
      rw [keys_length] at hroom
      omega

/-- The row that a full table gives up is one of its rows. -/
theorem oldestIdx_lt {rows : List DownstreamRow} (nowMs : UInt32) (h : 0 < rows.length) :
    oldestIdx rows nowMs < rows.length := by
  have hscan : ∀ (todo : List (DownstreamRow × Nat)) (best : Nat × UInt32),
      (∀ row ∈ todo, row.2 < rows.length) → best.1 < rows.length →
      (todo.foldl (fun (best : Nat × UInt32) (row : DownstreamRow × Nat) =>
        if best.2 < nowMs - row.1.lastUpdateMs then (row.2, nowMs - row.1.lastUpdateMs) else best)
        best).1 < rows.length := by
    intro todo
    induction todo with
    | nil => exact fun best _ hbest => hbest
    | cons row todo ih =>
      intro best htodo hbest
      rw [List.foldl_cons]
      refine ih _ (fun r hr => htodo r (List.mem_cons_of_mem _ hr)) ?_
      split
      · exact htodo row List.mem_cons_self
      · exact hbest
  refine hscan _ (0, 0) (fun row hrow => ?_) h
  have := List.mem_zipIdx hrow
  omega

/-- A full table gives up its oldest row for one that is not there. -/
theorem upsertEntry_keys_full (hmem : (row.destination, row.relay) ∉ ds.keys)
    (hfull : ¬ds.keys.length < MAX_DOWNSTREAM) :
    (ds.upsertEntry row).keys =
      ds.keys.set (oldestIdx ds.entries.rows row.lastUpdateMs) (row.destination, row.relay) := by
  rw [keys_length] at hfull
  unfold upsertEntry
  cases hfind : ds.entries.rows.findIdx? fun r =>
      r.destination == row.destination && r.relay == row.relay with
  | some i =>
    obtain ⟨r, hr, hkey⟩ := findIdx_key hfind
    exact absurd (List.mem_map.mpr ⟨r, List.mem_of_getElem? hr, hkey.symm⟩) hmem
  | none =>
    dsimp only
    cases hpush : ds.entries.push row with
    | some entries =>
      have hlen := congrArg List.length (Table.push_rows hpush)
      have := entries.le
      rw [List.length_append, List.length_singleton] at hlen
      omega
    | none => exact List.map_set

theorem oldestIdx_keys_lt (nowMs : UInt32) (hfull : ¬ds.keys.length < MAX_DOWNSTREAM) :
    oldestIdx ds.entries.rows nowMs < ds.keys.length := by
  rw [keys_length] at hfull ⊢
  exact oldestIdx_lt _ (Nat.lt_of_lt_of_le (by decide) (Nat.not_lt.mp hfull))

/-- The row is there afterwards, at the expense of another if need be. -/
theorem mem_upsertEntry :
    (row.destination, row.relay) ∈ (ds.upsertEntry row).keys ∧
      ∀ k ∈ (ds.upsertEntry row).keys, k = (row.destination, row.relay) ∨ k ∈ ds.keys := by
  by_cases h : (row.destination, row.relay) ∈ ds.keys ∨ ds.keys.length < MAX_DOWNSTREAM
  · rw [upsertEntry_keys h]
    split
    · rename_i hmem
      exact ⟨hmem, fun k hk => .inr hk⟩
    · exact ⟨by simp, fun k hk => (List.mem_append.mp hk).symm.imp List.mem_singleton.mp id⟩
  · obtain ⟨hmem, hfull⟩ := not_or.mp h
    rw [upsertEntry_keys_full hmem hfull]
    exact ⟨List.mem_set (oldestIdx_keys_lt _ hfull) _,
      fun k hk => (List.mem_or_eq_of_mem_set hk).symm⟩

theorem mem_clearForRelay {relay : UInt32} {k : UInt32 × UInt32} :
    k ∈ (ds.clearForRelay relay).keys ↔ k ∈ ds.keys ∧ k.2 ≠ relay := by
  have hrows := @Table.mem_swapOut _ _ (fun r : DownstreamRow => r.relay == relay) ds.entries
  constructor
  · intro hk
    obtain ⟨r, hr, rfl⟩ := List.mem_map.mp hk
    obtain ⟨hmem, hne⟩ := (hrows r).mp hr
    exact ⟨List.mem_map_of_mem hmem, by simpa using hne⟩
  · rintro ⟨hk, hne⟩
    obtain ⟨r, hr, rfl⟩ := List.mem_map.mp hk
    exact List.mem_map.mpr ⟨r, (hrows r).mpr ⟨hr, by simpa using hne⟩, rfl⟩

end Rows

/-! ## The loop -/

/-- One turn of the loop of `transferDownstream`. -/
def moveRow (oldRelay newRelay nowMs : UInt32) (ds : DownstreamTable) (i : Nat) : DownstreamTable :=
  match ds.entries.rows[i]? with
  | none => ds
  | some r =>
    if r.relay != oldRelay then ds
    else ds.upsertEntry { r with relay := newRelay, lastUpdateMs := nowMs }

/-- Of the rows `todo`, those that `oldRelay` serves and `newRelay` does not yet. -/
def toMove (ds : DownstreamTable) (oldRelay newRelay : UInt32) (todo : List (UInt32 × UInt32)) :
    Nat :=
  todo.countP fun k => k.2 == oldRelay && !ds.keys.contains (k.1, newRelay)

section Loop

variable {oldRelay newRelay nowMs : UInt32} {ds : DownstreamTable}

theorem transferDownstream_eq (hold : oldRelay ≠ 0) (hnew : newRelay ≠ 0) (hne : oldRelay ≠ newRelay) :
    ds.transferDownstream oldRelay newRelay nowMs =
      ((List.range ds.entries.rows.length).foldl (moveRow oldRelay newRelay nowMs) ds).clearForRelay
        oldRelay := by
  unfold transferDownstream
  rw [if_neg (by simp [hold, hnew, hne])]
  rfl

/-- Rows of other relays are passed over. -/
theorem moveRow_other {i : Nat} (h : ∀ k, ds.keys[i]? = some k → k.2 ≠ oldRelay) :
    moveRow oldRelay newRelay nowMs ds i = ds := by
  unfold moveRow
  cases hr : ds.entries.rows[i]? with
  | none => rfl
  | some r =>
    have hne : r.relay ≠ oldRelay := h (r.destination, r.relay) (by simp [keys, hr])
    exact if_pos (by simpa using hne)

/-- A row of the old relay is written under the new one. -/
theorem moveRow_keys {i : Nat} {k : UInt32 × UInt32} (hk : ds.keys[i]? = some k)
    (hold : k.2 = oldRelay) (hroom : (k.1, newRelay) ∈ ds.keys ∨ ds.keys.length < MAX_DOWNSTREAM) :
    (moveRow oldRelay newRelay nowMs ds i).keys =
      if (k.1, newRelay) ∈ ds.keys then ds.keys else ds.keys ++ [(k.1, newRelay)] := by
  unfold keys at hk
  rw [List.getElem?_map, Option.map_eq_some_iff] at hk
  obtain ⟨r, hr, rfl⟩ := hk
  unfold moveRow
  rw [hr]
  dsimp only at hold ⊢
  rw [if_neg (by simp [hold])]
  exact upsertEntry_keys hroom

/-- Nothing is moved where the old relay serves nobody. -/
theorem moveRows_none (h : ∀ k ∈ ds.keys, k.2 ≠ oldRelay) (is : List Nat) :
    is.foldl (moveRow oldRelay newRelay nowMs) ds = ds := by
  induction is with
  | nil => rfl
  | cons i is ih =>
    rw [List.foldl_cons, moveRow_other fun k hk => h k (List.mem_of_getElem? hk)]
    exact ih

theorem toMove_le {ds' : DownstreamTable} (h : ∀ k ∈ ds.keys, k ∈ ds'.keys)
    (todo : List (UInt32 × UInt32)) :
    toMove ds' oldRelay newRelay todo ≤ toMove ds oldRelay newRelay todo := by
  refine List.countP_mono_left fun k _ hk => ?_
  simp only [Bool.and_eq_true, Bool.not_eq_true', List.contains_eq_mem, decide_eq_false_iff_not]
    at hk ⊢
  exact ⟨hk.1, fun hmem => hk.2 (h _ hmem)⟩

/-- One turn, with room for every row that is still to be written: it appends at most
one row, and leaves room for the others. -/
theorem moveRow_step {i : Nat} {k : UInt32 × UInt32} {todo : List (UInt32 × UInt32)}
    (hk : ds.keys[i]? = some k)
    (hroom : ds.keys.length + toMove ds oldRelay newRelay (k :: todo) ≤ MAX_DOWNSTREAM) :
    ∃ extra, (moveRow oldRelay newRelay nowMs ds i).keys = ds.keys ++ extra ∧
      (k.2 = oldRelay → (k.1, newRelay) ∈ ds.keys ++ extra) ∧
      (ds.keys ++ extra).length + toMove (moveRow oldRelay newRelay nowMs ds i) oldRelay newRelay todo ≤
        MAX_DOWNSTREAM := by
  have hcount : toMove ds oldRelay newRelay (k :: todo) = toMove ds oldRelay newRelay todo +
      if k.2 == oldRelay && !ds.keys.contains (k.1, newRelay) then 1 else 0 := List.countP_cons
  by_cases hold : k.2 = oldRelay
  · by_cases hmem : (k.1, newRelay) ∈ ds.keys
    · have hkeys : (moveRow oldRelay newRelay nowMs ds i).keys = ds.keys := by
        rw [moveRow_keys hk hold (.inl hmem), if_pos hmem]
      have hle := @toMove_le oldRelay newRelay ds _ (fun k hk => hkeys ▸ hk) todo
      refine ⟨[], by rw [hkeys, List.append_nil], fun _ => by rw [List.append_nil]; exact hmem, ?_⟩
      rw [List.append_nil]
      omega
    · rw [if_pos (by simp [hold, hmem])] at hcount
      have hkeys : (moveRow oldRelay newRelay nowMs ds i).keys = ds.keys ++ [(k.1, newRelay)] := by
        rw [moveRow_keys hk hold (.inr (by omega)), if_neg hmem]
      have hle := @toMove_le oldRelay newRelay ds _
        (fun k hk => hkeys ▸ List.mem_append_left _ hk) todo
      refine ⟨[(k.1, newRelay)], hkeys, fun _ => by simp, ?_⟩
      rw [List.length_append, List.length_singleton]
      omega
  · have hsame : moveRow oldRelay newRelay nowMs ds i = ds := by
      refine moveRow_other fun k' hk' => ?_
      rw [hk, Option.some.injEq] at hk'
      exact hk' ▸ hold
    refine ⟨[], by rw [hsame, List.append_nil], fun h => absurd h hold, ?_⟩
    rw [hsame, List.append_nil]
    omega

/-- The loop over the rows `todo`. It only appends, so the rows it has yet to visit
stay in place. -/
theorem moveRows_keys {todo : List (UInt32 × UInt32)} :
    ∀ {ds : DownstreamTable} {done added : List (UInt32 × UInt32)},
      ds.keys = done ++ (todo ++ added) →
      ds.keys.length + toMove ds oldRelay newRelay todo ≤ MAX_DOWNSTREAM →
      ∃ extra, ((List.range' done.length todo.length).foldl (moveRow oldRelay newRelay nowMs) ds).keys =
          ds.keys ++ extra ∧
        ∀ k ∈ todo, k.2 = oldRelay → (k.1, newRelay) ∈ ds.keys ++ extra := by
  induction todo with
  | nil => exact fun _ _ => ⟨[], by simp, fun k hk => absurd hk List.not_mem_nil⟩
  | cons k todo ih =>
    intro ds done added hkeys hroom
    have hat : ds.keys[done.length]? = some k := by simp [hkeys]
    obtain ⟨extra, hturn, hmoved, hroom'⟩ := moveRow_step hat hroom
    rw [← hturn] at hroom'
    have hkeys' : (moveRow oldRelay newRelay nowMs ds done.length).keys =
        (done ++ [k]) ++ (todo ++ (added ++ extra)) := by
      rw [hturn, hkeys]
      simp
    obtain ⟨extra', hrest, hmoved'⟩ := ih hkeys' hroom'
    rw [List.length_append, List.length_singleton] at hrest
    rw [hturn, List.append_assoc] at hrest hmoved'
    rw [List.length_cons, List.range'_succ, List.foldl_cons]
    refine ⟨extra ++ extra', hrest, fun k' hk' hold => ?_⟩
    rcases List.mem_cons.mp hk' with rfl | hk'
    · rw [← List.append_assoc]
      exact List.mem_append_left _ (hmoved hold)
    · exact hmoved' k' hk' hold

/-- With room for what it writes, the transfer moves every row of the old relay. -/
theorem transferDownstream_keys (hold : oldRelay ≠ 0) (hnew : newRelay ≠ 0)
    (hne : oldRelay ≠ newRelay)
    (hroom : (∀ k ∈ ds.keys, k.2 ≠ oldRelay) ∨
      ds.keys.length + toMove ds oldRelay newRelay ds.keys ≤ MAX_DOWNSTREAM) :
    let ds' := ds.transferDownstream oldRelay newRelay nowMs
    (∀ k ∈ ds.keys, k.2 ≠ oldRelay → k ∈ ds'.keys) ∧
      (∀ k ∈ ds.keys, k.2 = oldRelay → (k.1, newRelay) ∈ ds'.keys) ∧
      ∀ k ∈ ds'.keys, k.2 ≠ oldRelay := by
  have hloop : ∃ extra,
      ((List.range ds.entries.rows.length).foldl (moveRow oldRelay newRelay nowMs) ds).keys =
          ds.keys ++ extra ∧
        ∀ k ∈ ds.keys, k.2 = oldRelay → (k.1, newRelay) ∈ ds.keys ++ extra := by
    rcases hroom with hnone | hroom
    · rw [moveRows_none hnone]
      exact ⟨[], by rw [List.append_nil], fun k hk hk' => absurd hk' (hnone k hk)⟩
    · have := @moveRows_keys oldRelay newRelay nowMs ds.keys ds [] [] (by simp) hroom
      rwa [List.length_nil, keys_length, ← List.range_eq_range'] at this
  obtain ⟨extra, hkeys, hmoved⟩ := hloop
  dsimp only
  rw [transferDownstream_eq hold hnew hne]
  simp only [mem_clearForRelay, hkeys]
  exact ⟨fun k hk hk' => ⟨List.mem_append_left _ hk, hk'⟩,
    fun k hk hk' => ⟨hmoved k hk hk', Ne.symm hne⟩, fun k hk => hk.2⟩

end Loop

end DownstreamTable

/-! ## Demotions -/

instance instLawfulBEqKey : LawfulBEq (UInt32 × UInt32) := inferInstance

/-- The table says that the parent serves the victim and what the victim served, and
nothing that the victim serves. -/
def HandedOver (d : PendingDemotion) (ds ds' : DownstreamTable) : Prop :=
  (d.victim, d.parent) ∈ ds'.keys ∧
    (∀ k ∈ ds.keys, k.2 = d.victim → (k.1, d.parent) ∈ ds'.keys) ∧
    ∀ k ∈ ds'.keys, k.2 ≠ d.victim

-- over the lists of keys, and not over all pairs of words
instance (d : PendingDemotion) (ds ds' : DownstreamTable) : Decidable (HandedOver d ds ds') :=
  @instDecidableAnd _ _ inferInstance
    (@instDecidableAnd _ _ (List.decidableBAll _ ds.keys) (List.decidableBAll _ ds'.keys))

/-- The victim serves nobody, or the rows that the demotion adds find room without
another being given up. -/
def Fits (d : PendingDemotion) (ds : DownstreamTable) : Prop :=
  (∀ k ∈ ds.keys, k.2 ≠ d.victim) ∨
    ds.keys.length + (if (d.victim, d.parent) ∈ ds.keys then 0 else 1) +
      ds.toMove d.victim d.parent ds.keys ≤ MAX_DOWNSTREAM

instance (d : PendingDemotion) (ds : DownstreamTable) : Decidable (Fits d ds) :=
  @instDecidableOr _ _ (List.decidableBAll _ ds.keys) inferInstance

section

variable {Etx : Type} {F : F32 Etx} {s : EdgeRows} {me nowMs : UInt32} {d : PendingDemotion}
  {ds : DownstreamTable}

/-- The row of a demotion is written: its price is positive. -/
theorem updateInner_demotion (hvictim : d.victim ≠ 0) (hparent : d.parent ≠ 0) (hme : d.victim ≠ me)
    (hne : d.parent ≠ d.victim) (hprice : F.positive (F.ofFixed d.costFixed) = true)
    (listLearned : Bool) :
    ∃ row : DownstreamRow, (row.destination, row.relay) = (d.victim, d.parent) ∧
      ds.updateInner F me d.victim d.parent (F.ofFixed d.costFixed) nowMs false 0 listLearned =
        ds.upsertEntry row := by
  refine ⟨⟨⟨d.victim, d.parent, F.costToFixed (F.ofFixed d.costFixed), nowMs⟩, 0, listLearned⟩, rfl, ?_⟩
  unfold DownstreamTable.updateInner
  rw [if_neg (by simp [hvictim, hparent, hme, Ne.symm hne, hprice]), if_neg Bool.false_ne_true]

/-- The row that is written first leaves the room that the others need. -/
theorem upsertEntry_fits {row : DownstreamRow} (hkey : (row.destination, row.relay) = (d.victim, d.parent))
    (hne : d.parent ≠ d.victim)
    (hfits : ds.keys.length + (if (d.victim, d.parent) ∈ ds.keys then 0 else 1) +
      ds.toMove d.victim d.parent ds.keys ≤ MAX_DOWNSTREAM) :
    (∀ k ∈ ds.keys, k ∈ (ds.upsertEntry row).keys) ∧
      (ds.upsertEntry row).keys.length +
        (ds.upsertEntry row).toMove d.victim d.parent (ds.upsertEntry row).keys ≤ MAX_DOWNSTREAM := by
  have hkeys := @DownstreamTable.upsertEntry_keys ds row
  rw [hkey] at hkeys
  by_cases hmem : (d.victim, d.parent) ∈ ds.keys
  · rw [if_pos hmem] at hfits hkeys
    have hsame := hkeys (.inl hmem)
    have hle := @DownstreamTable.toMove_le d.victim d.parent ds _ (fun k hk => hsame ▸ hk) ds.keys
    rw [hsame]
    exact ⟨fun k hk => hk, by omega⟩
  · rw [if_neg hmem] at hfits hkeys
    have happend := hkeys (.inr (by omega))
    have hkept : ∀ k ∈ ds.keys, k ∈ (ds.upsertEntry row).keys :=
      fun k hk => happend ▸ List.mem_append_left _ hk
    have hle := @DownstreamTable.toMove_le d.victim d.parent ds _ hkept
      (ds.keys ++ [(d.victim, d.parent)])
    have hcount : ds.toMove d.victim d.parent (ds.keys ++ [(d.victim, d.parent)]) =
        ds.toMove d.victim d.parent ds.keys := by
      unfold DownstreamTable.toMove
      rw [List.countP_append]
      simp [hne]
    refine ⟨hkept, ?_⟩
    rw [happend, List.length_append, List.length_singleton]
    omega

/-- A demotion to another node, at a positive price, does its work if the rows fit. -/
theorem applyDemotion_handsOver (hvictim : d.victim ≠ 0) (hparent : d.parent ≠ 0)
    (hme : d.victim ≠ me) (hne : d.parent ≠ d.victim)
    (hprice : F.positive (F.ofFixed d.costFixed) = true) (hfits : Fits d ds) :
    HandedOver d ds (s.applyDemotion F me d nowMs ds).2 := by
  unfold EdgeRows.applyDemotion
  obtain ⟨row, hkey, hrow⟩ := @updateInner_demotion _ F me nowMs d ds hvictim hparent hme hne hprice
    ((s.edge d.parent d.victim).any fun e => e.hearsUs)
  dsimp only
  rw [hrow]
  obtain ⟨hmem, hkeys⟩ := @DownstreamTable.mem_upsertEntry ds row
  rw [hkey] at hmem hkeys
  have hroom : ((∀ k ∈ (ds.upsertEntry row).keys, k.2 ≠ d.victim) ∨
      (ds.upsertEntry row).keys.length +
        (ds.upsertEntry row).toMove d.victim d.parent (ds.upsertEntry row).keys ≤ MAX_DOWNSTREAM) ∧
      ∀ k ∈ ds.keys, k.2 = d.victim → k ∈ (ds.upsertEntry row).keys := by
    rcases hfits with hnone | hfits
    · refine ⟨.inl fun k hk => ?_, fun k hk hold => absurd hold (hnone k hk)⟩
      rcases hkeys k hk with rfl | hk
      · exact hne
      · exact hnone k hk
    · obtain ⟨hkept, hroom⟩ := upsertEntry_fits hkey hne hfits
      exact ⟨.inr hroom, fun k hk _ => hkept k hk⟩
  obtain ⟨hother, hmoved, hgone⟩ := @DownstreamTable.transferDownstream_keys d.victim d.parent nowMs
    (ds.upsertEntry row) hvictim hparent (Ne.symm hne) hroom.1
  exact ⟨hother _ hmem hne, fun k hk hold => hmoved k (hroom.2 k hk hold) hold, hgone⟩

end

end Meshrustic.Topology
