import CallTrace.Proofs.History

/-!
# Counting by coarser keys

Which calls a histogram counts, and with which failure it breaks off, does not depend on the key
(`exists_histogram`).  So a key that is made from a finer one leads to the same total, and each of
its counts is the sum of the counts of the finer keys that it is made from
(`Tally.Counts.regroups`), whether the count breaks off or not (`histogram_regroups`).
-/

namespace CallTrace

open Delivery

namespace Tally

variable {fine coarse : Tally} {keys : List String} {coarsen : String → String}

/-- The coarse tally holds what the fine one holds, with coarser keys in place of the finer ones. -/
structure Regroups (fine : Tally) (coarsen : String → String) (coarse : Tally) : Prop where
  total_eq : coarse.total = fine.total
  mem_iff : ∀ key, key ∈ coarse.counts ↔ ∃ finer ∈ fine.counts, coarsen finer = key
  count_eq : ∀ key, coarse.count key =
    ((fine.entries.filter fun entry => coarsen entry.1 = key).map Prod.snd).sum

/-- A coarser key occurs as often as all that it is made from. -/
theorem count_map_eq_sum (coarsen : String → String) (keys : List String) (key : String) :
    (keys.map coarsen).count key =
      ((keys.dedup.filter fun finer => coarsen finer = key).map (keys.count ·)).sum := by
  rw [List.sum_map_count_dedup_filter_eq_countP, List.count, List.countP_map]
  rfl

theorem Counts.regroups (h : fine.Counts keys) (hcoarse : coarse.Counts (keys.map coarsen)) :
    fine.Regroups coarsen coarse where
  total_eq := by rw [hcoarse.total, h.total, List.length_map]
  mem_iff := by
    intro key
    rw [hcoarse.mem_counts, List.mem_map]
    simp only [h.mem_counts]
  count_eq := by
    intro key
    have listed : (fine.entries.filter fun entry => coarsen entry.1 = key).map Prod.fst =
        (fine.entries.map Prod.fst).filter fun finer => coarsen finer = key := by
      rw [List.filter_map]
      rfl
    rw [hcoarse.count_eq, count_map_eq_sum, h.map_snd (List.filter_subset_self _), listed,
      ((h.perm_dedup.filter _).map _).sum_eq]

end Tally

variable {σ : Type} {a : Answers} {r : Reader σ} {store : StoreId}

/-- All histograms of a steady reader count the same calls and break off with the same failure. -/
theorem exists_histogram (steady : r.Gives a)
    (ends : ∀ client records, a.calls client = .ok records → a.Ends records) (store : StoreId) :
    ∃ d : Delivery, ∀ key t s, (r.histogram store key t s).1 = t.fold key d.items := by
  cases granted : a.clients with
  | error e => exact ⟨failed e, histogram_refused steady granted⟩
  | ok clients =>
    obtain ⟨d, walked⟩ := Answers.exists_walkClients store ends clients
    exact ⟨d, histogram_eq steady granted walked⟩

/-- The key leaves no trace in the reader. -/
theorem histogram_state (r : Reader σ) (store : StoreId) (key key' : Call → String)
    (t t' : Tally) (s : σ) :
    (r.histogram store key t s).2 = (r.histogram store key' t' s).2 := by
  rw [Reader.histogram, Reader.histogram]
  cases started : Walk.ofClients r s with
  | mk outcome s' =>
    cases outcome with
    | error e =>
      have refused := congrArg Prod.fst started
      rw [Reader.countWalk_refused refused, Reader.countWalk_refused refused]
    | ok w => rw [Reader.countWalk_started started, Reader.countWalk_started started]

/-- Counting by a coarser key ends as counting by the finer one does, with the same total, and
    adds up the counts of the finer keys, in whatever state the reader was left.  Neither key makes
    a difference to what the reader is asked for.  So the analyses by qualified names and by
    prefixes of names either fail with the same error or rank the same number of calls. -/
theorem histogram_regroups (steady : r.Gives a)
    (ends : ∀ client records, a.calls client = .ok records → a.Ends records) (id : StoreId)
    (s later : σ) :
    (∀ (key : Call → String) (coarsen : String → String), ∃ fine coarse outcome,
      (r.histogram id key .empty s).1 = (fine, outcome) ∧
      (r.histogram id (fun call => coarsen (key call)) .empty later).1 = (coarse, outcome) ∧
      fine.Regroups coarsen coarse) ∧
    (∀ key key' t t', (r.histogram id key t s).2 = (r.histogram id key' t' s).2) ∧
    ∀ n m, ∃ after after',
      (∃ e, Store.analyze ⟨id, r, s, true⟩ .qualifiedName n = .ok (.error (.reading e), after) ∧
        Store.analyze ⟨id, r, later, true⟩ .namePrefix m = .ok (.error (.reading e), after')) ∨
      ∃ byName byPrefix,
        Store.analyze ⟨id, r, s, true⟩ .qualifiedName n = .ok (.ok byName, after) ∧
        Store.analyze ⟨id, r, later, true⟩ .namePrefix m = .ok (.ok byPrefix, after') ∧
        byName.total = byPrefix.total := by
  obtain ⟨d, counted⟩ := exists_histogram steady ends id
  refine ⟨?_, fun key key' t t' => histogram_state r id key key' t t' s, ?_⟩
  · intro key coarsen
    rw [counted, counted, Tally.fold_items, Tally.fold_items]
    refine ⟨_, _, _, rfl, rfl, ?_⟩
    apply (Tally.counts_accumulateAll (d.calls.map key)).regroups
    have composed : d.calls.map (fun call => coarsen (key call)) =
        (d.calls.map key).map coarsen := by
      rw [List.map_map]
      rfl
    rw [composed]
    exact Tally.counts_accumulateAll _
  · intro n m
    rw [Store.analyze_open, Store.analyze_open, counted, counted, Tally.fold_items,
      Tally.fold_items]
    cases d.failure with
    | some e => exact ⟨_, _, .inl ⟨e, rfl, rfl⟩⟩
    | none =>
      refine ⟨_, _, .inr ⟨_, _, rfl, rfl, ?_⟩⟩
      rw [Ranking.ofTally, Ranking.ofTally, Tally.total_accumulateAll, Tally.total_accumulateAll,
        List.length_map, List.length_map]

/-- Two functions of one module. -/
def openAndClose : List CallRecord :=
  [{ (default : CallRecord) with moduleName := "nt", functionName := "NtOpen" },
    { (default : CallRecord) with moduleName := "nt", functionName := "NtClose" }]

/-- Two calls, and one after them that cannot be read. -/
def twoReadable : Answers where
  clients := .ok [.ok ⟨4, 8⟩]
  calls _ := .ok (openAndClose.map .ok ++ [.error (.cannotRead (.reported "unreadable"))])
  childCalls _ := .ok []

theorem twoReadable_walkClients (store : StoreId) :
    twoReadable.walkClients store [.ok ⟨4, 8⟩] =
      some ⟨openAndClose.map (Call.ofRecord · store),
        some (.cannotRead (.reported "unreadable"))⟩ := by
  rw [Answers.walkClients_ok, Answers.walkClient]
  change andThen (twoReadable.walkCalls store [.ok _, .ok _, .error _]) _ = _
  rw [Answers.walkCalls_ok, Answers.walkCalls_ok, Answers.walkBelow_normal _ _ rfl,
    Answers.walkBelow_normal _ _ rfl]
  rfl

/-- Both calls are counted under what their qualified names begin with, before the count breaks
    off. -/
theorem histogram_regroups_twoReadable :
    twoReadable.reader.Gives twoReadable ∧
      (∀ client records, twoReadable.calls client = .ok records → twoReadable.Ends records) ∧
      ∃ fine coarse e,
        (twoReadable.reader.histogram 3 Call.qualifiedName .empty 0).1 = (fine, .error e) ∧
        (twoReadable.reader.histogram 3 (fun call => namePrefix call.qualifiedName) .empty 7).1 =
          (coarse, .error e) ∧
        fine.Regroups namePrefix coarse ∧ fine.entries = [("nt!NtClose", 1), ("nt!NtOpen", 1)] ∧
        coarse.count "nt!" = 2 := by
  have steady := twoReadable.reader_gives
  have ends : ∀ client records, twoReadable.calls client = .ok records →
      twoReadable.Ends records := by
    intro client records _
    apply Answers.ends_of_measure fun _ => 0
    rintro child parent ⟨children, granted, record, hmem, -⟩
    cases granted
    cases hmem
  have names : (openAndClose.map (Call.ofRecord · 3)).map Call.qualifiedName =
      ["nt!NtOpen", "nt!NtClose"] := by
    decide +kernel
  have listed : (Tally.accumulateAll .empty ["nt!NtOpen", "nt!NtClose"]).entries =
      [("nt!NtClose", 1), ("nt!NtOpen", 1)] := by
    decide +kernel
  have counted := histogram_eq steady rfl (twoReadable_walkClients 3) Call.qualifiedName .empty 0
  rw [Tally.fold_items, names] at counted
  obtain ⟨regrouped, -⟩ := histogram_regroups steady ends 3 0 7
  obtain ⟨fine, coarse, outcome, hfine, hcoarse, regroups⟩ :=
    regrouped Call.qualifiedName namePrefix
  cases counted.symm.trans hfine
  refine ⟨steady, ends, _, coarse, _, hfine, hcoarse, regroups, listed, ?_⟩
  rw [regroups.count_eq, listed]
  decide +kernel

end CallTrace
