import SonmCore.Directory

/-!
# One sweep of the janitor

`traverseAndClean` computes `deadline := time.Now().Add(-NodeTTL)` before it takes
the lock, then ranges over the map and deletes, while ranging, every record stamped
before the deadline.  Go lets a `range` loop delete the key it is visiting; an entry
deleted before the loop reaches it is not produced.  The runtime walks the keys in
an order of its own, modelled here as an argument `order`, a permutation of the
keys.

The main result, `traverseAndClean_sweeps`, says that the loop visits every record
once with the value it had, keeps exactly the records that are not expired, and
that its three logged counters add up.
-/

namespace SonmCore.Directory

/-- `time.Now().Add(-1 * l.conf.NodeTTL)`. -/
def sweepDeadline (conf : LocatorConfig) (now : Time) : Time :=
  now + -1 * conf.nodeTTL

/-- The locals of `traverseAndClean` while it ranges, with the entries its body has
run on so far (`visited`, kept only to state what the loop visits). -/
structure Sweep where
  db : DB
  total : Nat
  del : Nat
  keep : Nat
  visited : List (Address × Node)

/-- `!node.ts.Before(deadline)`: the record survives the sweep. -/
def survives (deadline : Time) (n : Node) : Bool :=
  !decide (n.ts < deadline)

/-- One iteration of `for addr, node := range l.db`: the entry is produced only if
it is still in the map. -/
def Sweep.visit (deadline : Time) (s : Sweep) (addr : Address) : Sweep :=
  match s.db.lookup addr with
  | none => s
  | some node =>
    if node.ts < deadline then
      { s with db := s.db.erase addr, del := s.del + 1,
               visited := s.visited ++ [(addr, node)] }
    else
      { s with keep := s.keep + 1, visited := s.visited ++ [(addr, node)] }

/-- The part of `traverseAndClean` under the lock, for the deadline computed
before it and the runtime's iteration order. -/
def traverseAndClean (deadline : Time) (order : List Address) (db : DB) : Sweep :=
  order.foldl (Sweep.visit deadline) ⟨db, db.entries.length, 0, 0, []⟩

theorem length_erase_add_one {db : DB} {a : Address} (h : a ∈ db) :
    (db.erase a).entries.length + 1 = db.entries.length := by
  have hkeys : (db.erase a).keys.length + 1 = db.keys.length := by
    rw [AList.keys_erase, List.length_erase_of_mem (AList.mem_keys.mp h)]
    have : 0 < db.keys.length := List.length_pos_of_mem (AList.mem_keys.mp h)
    omega
  simpa [AList.keys, List.keys] using hkeys

namespace Sweep

variable {deadline : Time}

theorem visit_of_lookup {s : Sweep} {a : Address} {n : Node} (h : s.db.lookup a = some n) :
    s.visit deadline a =
      if n.ts < deadline then
        { s with db := s.db.erase a, del := s.del + 1, visited := s.visited ++ [(a, n)] }
      else { s with keep := s.keep + 1, visited := s.visited ++ [(a, n)] } := by
  simp [visit, h]

theorem visit_spec (deadline : Time) {s : Sweep} {a : Address} {n : Node}
    (h : s.db.lookup a = some n) :
    (s.visit deadline a).visited = s.visited ++ [(a, n)] ∧
    (∀ b, (s.visit deadline a).db.lookup b =
      if b = a then (some n).filter (survives deadline) else s.db.lookup b) ∧
    (s.visit deadline a).total = s.total ∧
    (s.visit deadline a).del + (s.visit deadline a).keep = s.del + s.keep + 1 ∧
    (s.visit deadline a).db.entries.length + (s.visit deadline a).del =
      s.db.entries.length + s.del ∧
    (s.visit deadline a).db.entries.length + s.keep + 1 =
      s.db.entries.length + (s.visit deadline a).keep := by
  have hmem : a ∈ s.db := by rw [← AList.lookup_isSome, h]; rfl
  have hlen := length_erase_add_one hmem
  rw [visit_of_lookup h]
  split_ifs with hts
  · refine ⟨rfl, fun b => ?_, rfl, by simp only; omega, by simp only; omega, by simp only; omega⟩
    by_cases hb : b = a
    · subst hb; simp [survives, hts, Option.filter_some]
    · simp [hb, AList.lookup_erase_ne hb]
  · refine ⟨rfl, fun b => ?_, rfl, by simp only; omega, rfl, rfl⟩
    by_cases hb : b = a
    · subst hb; simp [h, survives, hts, Option.filter_some]
    · simp [hb]

/-- What the rest of the loop does from `s`, when the keys left to visit are
distinct and still in the map. -/
theorem foldl_visit (deadline : Time) :
    ∀ (todo : List Address) (s : Sweep), todo.Nodup → (∀ a ∈ todo, a ∈ s.db) →
      let s' := todo.foldl (visit deadline) s
      s'.visited = s.visited ++ todo.filterMap (fun a => (s.db.lookup a).map (a, ·)) ∧
      (∀ b, s'.db.lookup b =
        if b ∈ todo then (s.db.lookup b).filter (survives deadline) else s.db.lookup b) ∧
      s'.total = s.total ∧
      s'.del + s'.keep = s.del + s.keep + todo.length ∧
      s'.db.entries.length + s'.del = s.db.entries.length + s.del ∧
      s'.db.entries.length + s.keep + todo.length = s.db.entries.length + s'.keep
  | [], s, _, _ => by simp
  | a :: todo, s, hnd, hmem => by
    obtain ⟨n, hn⟩ := Option.isSome_iff_exists.mp (AList.lookup_isSome.mpr (hmem a (by simp)))
    have ha : a ∉ todo := (List.nodup_cons.mp hnd).1
    obtain ⟨hv1, hl1, ht1, hc1, hd1, hk1⟩ := visit_spec deadline hn
    have hrest : ∀ b ∈ todo, (s.visit deadline a).db.lookup b = s.db.lookup b := fun b hb => by
      rw [hl1 b, if_neg fun (hba : b = a) => ha (hba ▸ hb)]
    obtain ⟨hv, hl, ht, hc, hd, hk⟩ := foldl_visit deadline todo (s.visit deadline a)
      (List.nodup_cons.mp hnd).2 fun b hb => AList.lookup_isSome.mp
        (by rw [hrest b hb]; exact AList.lookup_isSome.mpr (hmem b (by simp [hb])))
    simp only [List.foldl_cons, List.length_cons]
    refine ⟨?_, fun b => ?_, ht.trans ht1, by omega, by omega, by omega⟩
    · rw [hv, hv1, List.filterMap_congr fun b hb => by rw [hrest b hb]]
      simp [hn]
    · rw [hl b, hl1 b]
      by_cases hb : b = a
      · subst hb; simp [ha, hn]
      · by_cases hbt : b ∈ todo <;> simp [hb, hbt]

end Sweep

theorem traverseAndClean_lookup {deadline : Time} {db : DB} {order : List Address}
    (horder : order.Perm db.keys) (a : Address) :
    (traverseAndClean deadline order db).db.lookup a = (db.lookup a).filter (survives deadline) := by
  have hmem : ∀ a ∈ order, a ∈ db := fun a ha => AList.mem_keys.mpr (horder.subset ha)
  rw [traverseAndClean, (Sweep.foldl_visit deadline order _ (horder.nodup_iff.mpr db.keys_nodup) hmem).2.1 a]
  split_ifs with ha
  · rfl
  · have : db.lookup a = none := by
      rw [AList.lookup_eq_none, AList.mem_keys]
      exact fun h => ha (horder.symm.subset h)
    simp [this]

theorem traverseAndClean_sweeps (deadline : Time) (db : DB) (order : List Address)
    (horder : order.Perm db.keys) :
    let s := traverseAndClean deadline order db
    (s.visited.map Prod.fst).Perm db.keys ∧
    (∀ p ∈ s.visited, db.lookup p.1 = some p.2) ∧
    (∀ a, s.db.lookup a = (db.lookup a).filter (survives deadline)) ∧
    s.del + s.keep = s.total ∧ s.total = db.entries.length ∧
    s.keep = s.db.entries.length ∧ s.del = db.entries.length - s.db.entries.length := by
  have hnd : order.Nodup := horder.nodup_iff.mpr db.keys_nodup
  have hmem : ∀ a ∈ order, a ∈ db := fun a ha => AList.mem_keys.mpr (horder.subset ha)
  obtain ⟨hv, hl, ht, hc, hd, hk⟩ := Sweep.foldl_visit deadline order
    ⟨db, db.entries.length, 0, 0, []⟩ hnd hmem
  have hlen : order.length = db.entries.length := by
    simpa [AList.keys, List.keys] using horder.length_eq
  have hvisit : ∀ a ∈ order, ((db.lookup a).map (a, ·)).map Prod.fst = some a := by
    intro a ha
    obtain ⟨n, hn⟩ := Option.isSome_iff_exists.mp (AList.lookup_isSome.mpr (hmem a ha))
    simp [hn]
  refine ⟨?_, ?_, fun a => ?_, ?_, ht, ?_, ?_⟩
  · simp only [traverseAndClean, hv, List.nil_append, List.map_filterMap]
    rw [List.filterMap_congr hvisit, List.filterMap_some]
    exact horder
  · intro p hp
    simp only [traverseAndClean, hv, List.nil_append, List.mem_filterMap,
      Option.map_eq_some'] at hp
    obtain ⟨a, -, n, hn, rfl⟩ := hp
    exact hn
  · exact traverseAndClean_lookup horder a
  · simp only [traverseAndClean] at hc ht ⊢; omega
  · simp only [traverseAndClean] at hk ⊢; omega
  · simp only [traverseAndClean] at hd ⊢; omega

/-- A sweep at deadline `7` over two records, stamped `5` and `10`, walked in the
order opposite to the map's own. -/
theorem traverseAndClean_sweeps_keys :
    let db : DB := ((∅ : DB).insert 1 ⟨1, ["a"], 5⟩).insert 2 ⟨2, ["b"], 10⟩
    let s := traverseAndClean 7 [1, 2] db
    ([1, 2] : List Address).Perm db.keys ∧
    ((s.visited.map Prod.fst).Perm db.keys ∧
      (∀ p ∈ s.visited, db.lookup p.1 = some p.2) ∧
      (∀ a, s.db.lookup a = (db.lookup a).filter (survives 7)) ∧
      s.del + s.keep = s.total ∧ s.total = db.entries.length ∧
      s.keep = s.db.entries.length ∧ s.del = db.entries.length - s.db.entries.length) :=
  ⟨by decide, traverseAndClean_sweeps 7 _ [1, 2] (by decide)⟩

end SonmCore.Directory
