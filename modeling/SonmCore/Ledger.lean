import Mathlib.Logic.Basic
import Mathlib.Tactic.Common

/-!
# The hub's view of the ledger

`insonmnia/hub` asks the ledger collaborator (`blockchain.Blockchainer`) for the deals
opened or closed between the hub and a buyer, and for each deal's details.  Nothing
ties one answer of the ledger to another: it may change between two probes and
within one.  A `Ledger` is therefore any function from the position of a query in
the call to its answer.

Both `findDealOnce` and the poll of `WaitForDealClosed` list deal ids, then look
them up in order, skip an id whose lookup fails, and stop at the first deal they
accept.  That loop is `scanDealInfo`, specified once by `scanDealInfo_some`,
`scanDealInfo_none` and `scanDealInfo_first`.
-/

namespace SonmCore.Hub

/-- `*big.Int` deal ids. -/
abbrev BigInt := Int

/-- `pb.DealStatus`; `other` stands for every value but the three the hub tests. -/
inductive DealStatus where
  | pending
  | accepted
  | closed
  | other (code : Int)
  deriving DecidableEq, Repr

/-- The fields of `pb.Deal` the hub reads. -/
structure Deal where
  id : String
  supplierID : String
  specificationHash : String
  status : DealStatus
  deriving DecidableEq, Repr

/-- An error made outside the hub, by the ledger client or by `util`. -/
structure ExtError where
  msg : String
  deriving DecidableEq, Repr

/-- `ctx.Err()` of a context that is done. -/
inductive CtxErr where
  | canceled
  | deadlineExceeded
  deriving DecidableEq, Repr

/-- The errors of the hub's deal functions.  `errDealNotFound` is declared with the
hub's other errors, outside these sources; as an unexported value of its own it
equals no error of another package. -/
inductive HubError where
  | external (err : ExtError)
  | context (err : CtxErr)
  | dealNotFound
  deriving DecidableEq, Repr

def errDealNotFound : HubError := .dealNotFound

/-- The ledger collaborator as one call of the hub sees it: the answer to the listing
query of probe `p`, and to the `i`-th `GetDealInfo` of probe `p`. -/
structure Ledger where
  getOpenedDeal : Nat → String → String → Except ExtError (List BigInt)
  getClosedDeal : Nat → String → String → Except ExtError (List BigInt)
  getDealInfo : Nat → Nat → BigInt → Except ExtError Deal

/-- `GetDeal`.  `parseBigInt` is `util.ParseBigInt`, `getDealInfo` the ledger's answer
to the call's one lookup, and `selfHex` the hub's own address,
`util.PubKeyToAddr(e.key.PublicKey).Hex()`. -/
def getDeal (parseBigInt : String → Except ExtError BigInt)
    (getDealInfo : BigInt → Except ExtError Deal) (selfHex : String) (id : String) :
    Except HubError Deal :=
  match parseBigInt id with
  | .error err => .error (.external err)
  | .ok bigID =>
    match getDealInfo bigID with
    | .error err => .error (.external err)
    | .ok deal =>
      let idOK := deal.supplierID == selfHex
      let statusOK := deal.status == .accepted
      if idOK && statusOK then .ok deal else .error errDealNotFound

theorem getDeal_of_info {parseBigInt : String → Except ExtError BigInt}
    {getDealInfo : BigInt → Except ExtError Deal} {selfHex id : String} {bigID : BigInt}
    {deal : Deal} (hparse : parseBigInt id = .ok bigID) (hinfo : getDealInfo bigID = .ok deal) :
    getDeal parseBigInt getDealInfo selfHex id =
      if deal.supplierID = selfHex ∧ deal.status = .accepted then .ok deal
      else .error errDealNotFound := by
  simp [getDeal, hparse, hinfo]

/-- `GetDeal` for an id that `util.ParseBigInt` accepts: the deal exactly when the
ledger answers a deal supplied by this hub and accepted, `errDealNotFound` for any
other deal, and the ledger's own error, unchanged, when it answers with one. -/
theorem getDeal_of_parse (parseBigInt : String → Except ExtError BigInt)
    (getDealInfo : BigInt → Except ExtError Deal) (selfHex id : String) {bigID : BigInt}
    (hparse : parseBigInt id = .ok bigID) :
    (∀ deal, getDeal parseBigInt getDealInfo selfHex id = .ok deal ↔
      getDealInfo bigID = .ok deal ∧ deal.supplierID = selfHex ∧ deal.status = .accepted) ∧
    (∀ deal, getDealInfo bigID = .ok deal →
      ¬ (deal.supplierID = selfHex ∧ deal.status = .accepted) →
      getDeal parseBigInt getDealInfo selfHex id = .error errDealNotFound) ∧
    (∀ err, getDealInfo bigID = .error err →
      getDeal parseBigInt getDealInfo selfHex id = .error (.external err)) := by
  refine ⟨fun deal => ?_, fun deal hinfo hbad => ?_, fun err hinfo => ?_⟩
  · cases hinfo : getDealInfo bigID with
    | error err => simp [getDeal, hparse, hinfo]
    | ok deal' =>
      rw [getDeal_of_info hparse hinfo]
      split_ifs with hok
      · simp only [Except.ok.injEq]
        exact ⟨fun h => ⟨h, h ▸ hok⟩, fun h => h.1⟩
      · simp only [reduceCtorEq, Except.ok.injEq, false_iff]
        rintro ⟨rfl, h⟩
        exact hok h
  · rw [getDeal_of_info hparse hinfo, if_neg hbad]
  · simp [getDeal, hparse, hinfo]

/-- The three answers of the ledger for the id `42`: an accepted deal of this hub, a deal
of another supplier, and an error. -/
theorem getDeal_of_parse_answered :
    let parse : String → Except ExtError BigInt := fun _ => .ok 42
    let own : Deal := ⟨"42", "0xhub", "h", .accepted⟩
    let other : Deal := ⟨"42", "0xother", "h", .accepted⟩
    parse "42" = .ok 42 ∧
    getDeal parse (fun _ => .ok own) "0xhub" "42" = .ok own ∧
    getDeal parse (fun _ => .ok other) "0xhub" "42" = .error errDealNotFound ∧
    getDeal parse (fun _ => .error ⟨"no such deal"⟩) "0xhub" "42" =
      .error (.external ⟨"no such deal"⟩) :=
  ⟨rfl,
    ((getDeal_of_parse (fun _ => .ok 42) (fun _ => .ok ⟨"42", "0xhub", "h", .accepted⟩) "0xhub"
      "42" rfl).1 _).mpr ⟨rfl, rfl, rfl⟩,
    (getDeal_of_parse (fun _ => .ok 42) (fun _ => .ok ⟨"42", "0xother", "h", .accepted⟩) "0xhub"
      "42" rfl).2.1 _ rfl (by simp),
    (getDeal_of_parse (fun _ => .ok 42) (fun _ => .error ⟨"no such deal"⟩) "0xhub" "42"
      rfl).2.2 _ rfl⟩

/-- An id the ledger answers with an error: `GetDeal` passes the error on, and it is
not `errDealNotFound`. -/
theorem getDeal_ledger_error_not_dealNotFound :
    getDeal (fun _ => .ok 42) (fun _ => .error ⟨"no such deal"⟩) "0xhub" "42" =
      .error (.external ⟨"no such deal"⟩) ∧
    getDeal (fun _ => .ok 42) (fun _ => .error ⟨"no such deal"⟩) "0xhub" "42" ≠
      .error errDealNotFound :=
  ⟨rfl, by simp [getDeal, errDealNotFound]⟩

def acceptDeal (parseBigInt : String → Except ExtError BigInt)
    (accept : BigInt → Except ExtError Unit) (id : String) : Except HubError Unit :=
  match parseBigInt id with
  | .error err => .error (.external err)
  | .ok bigID => (accept bigID).mapError .external

/-- The `for _, id := range ids` loop shared by the two probes: `info i id` is the
`i`-th lookup.  Returns the deal accepted, if any, and the number of lookups made. -/
def scanDealInfo (info : Nat → BigInt → Except ExtError Deal) (accept : Deal → Bool) :
    Nat → List BigInt → Option Deal × Nat
  | _, [] => (none, 0)
  | i, id :: ids =>
    match info i id with
    | .ok deal =>
      if accept deal then (some deal, 1)
      else ((scanDealInfo info accept (i + 1) ids).1, (scanDealInfo info accept (i + 1) ids).2 + 1)
    | .error _ =>
      ((scanDealInfo info accept (i + 1) ids).1, (scanDealInfo info accept (i + 1) ids).2 + 1)

section scan

variable {info : Nat → BigInt → Except ExtError Deal} {accept : Deal → Bool}

theorem scanDealInfo_hit {i : Nat} {id : BigInt} (ids : List BigInt) {d : Deal}
    (hinfo : info i id = .ok d) (hacc : accept d = true) :
    scanDealInfo info accept i (id :: ids) = (some d, 1) := by
  simp [scanDealInfo, hinfo, hacc]

theorem scanDealInfo_skip {i : Nat} {id : BigInt} (ids : List BigInt)
    (h : ¬ ∃ d, info i id = .ok d ∧ accept d = true) :
    scanDealInfo info accept i (id :: ids) =
      ((scanDealInfo info accept (i + 1) ids).1, (scanDealInfo info accept (i + 1) ids).2 + 1) := by
  rw [scanDealInfo]
  split
  · next d hd => rw [if_neg fun hacc => h ⟨d, hd, hacc⟩]
  · rfl

/-- The scan returns a deal only as the answer to a lookup of the list, the first
lookup that gave a deal the check accepts. -/
theorem scanDealInfo_some :
    ∀ {i : Nat} {ids : List BigInt} {d : Deal} {n : Nat},
      scanDealInfo info accept i ids = (some d, n) →
      ∃ k, ∃ hk : k < ids.length, info (i + k) ids[k] = .ok d ∧ accept d = true ∧
        n = k + 1 ∧ ∀ j, ∀ hj : j < k, ¬ ∃ d', info (i + j) ids[j] = .ok d' ∧ accept d' = true
  | _, [], _, _, h => by simp [scanDealInfo] at h
  | i, id :: ids, d, n, h => by
    by_cases hhead : ∃ d', info i id = .ok d' ∧ accept d' = true
    · obtain ⟨d', hinfo, hacc⟩ := hhead
      rw [scanDealInfo_hit ids hinfo hacc, Prod.mk.injEq, Option.some.injEq] at h
      obtain ⟨rfl, rfl⟩ := h
      exact ⟨0, by simp, by simpa using hinfo, hacc, rfl, fun j hj => absurd hj (Nat.not_lt_zero j)⟩
    · rw [scanDealInfo_skip ids hhead, Prod.mk.injEq] at h
      obtain ⟨k, hk, hinfo, hacc, hn, hbefore⟩ := scanDealInfo_some (Prod.ext h.1 rfl)
      refine ⟨k + 1, by simp [hk], by simpa [Nat.add_assoc, Nat.add_comm 1] using hinfo, hacc,
        by have : (scanDealInfo info accept (i + 1) ids).snd = k + 1 := hn; omega,
        fun j hj => ?_⟩
      cases j with
      | zero => simpa using hhead
      | succ j => simpa [Nat.add_assoc, Nat.add_comm 1] using hbefore j (by omega)

theorem scanDealInfo_none :
    ∀ (i : Nat) (ids : List BigInt),
      (∀ k, ∀ hk : k < ids.length, ¬ ∃ d, info (i + k) ids[k] = .ok d ∧ accept d = true) →
      scanDealInfo info accept i ids = (none, ids.length)
  | _, [], _ => rfl
  | i, id :: ids, h => by
    have hrest := scanDealInfo_none (i + 1) ids fun k hk => by
      simpa [Nat.add_assoc, Nat.add_comm 1] using h (k + 1) (by simp [hk])
    rw [scanDealInfo_skip ids (by simpa using h 0 (by simp)), hrest]
    rfl

/-- When the first lookup that gives an accepted deal is the one of `ids[k]`, the
scan returns that deal after `k + 1` lookups: lookups that failed before it do not
stop the scan. -/
theorem scanDealInfo_first :
    ∀ (i : Nat) (ids : List BigInt) (k : Nat) (hk : k < ids.length) (d : Deal),
      (∀ j, ∀ hj : j < k, ¬ ∃ d', info (i + j) ids[j] = .ok d' ∧ accept d' = true) →
      info (i + k) ids[k] = .ok d → accept d = true →
      scanDealInfo info accept i ids = (some d, k + 1)
  | _, [], _, hk, _, _, _, _ => absurd hk (by simp)
  | i, id :: ids, 0, _, d, _, hinfo, hacc => scanDealInfo_hit ids (by simpa using hinfo) hacc
  | i, id :: ids, k + 1, hk, d, hbefore, hinfo, hacc => by
    rw [scanDealInfo_skip ids (by simpa using hbefore 0 (by omega)),
      scanDealInfo_first (i + 1) ids k (by simpa using hk) d
        (fun j hj => by simpa [Nat.add_assoc, Nat.add_comm 1] using hbefore (j + 1) (by omega))
        (by simpa [Nat.add_assoc, Nat.add_comm 1] using hinfo) hacc]

end scan

/-- The deal check of `findDealOnce`. -/
def pendingWith (hash : String) (deal : Deal) : Bool :=
  deal.status == .pending && deal.specificationHash == hash

/-- The deal check of `WaitForDealClosed`. -/
def closedAs (dealID : String) (info : Deal) : Bool :=
  info.id == dealID && info.status == .closed

@[simp] theorem pendingWith_eq_true {hash : String} {deal : Deal} :
    pendingWith hash deal = true ↔ deal.status = .pending ∧ deal.specificationHash = hash := by
  simp [pendingWith]

@[simp] theorem closedAs_eq_true {dealID : String} {info : Deal} :
    closedAs dealID info = true ↔ info.id = dealID ∧ info.status = .closed := by
  simp [closedAs]

/-- `findDealOnce`, as the `p`-th probe of its call: the deal found, and the number of
ledger queries made. -/
def findDealOnce (bc : Ledger) (selfHex addr hash : String) (p : Nat) : Option Deal × Nat :=
  match bc.getOpenedDeal p selfHex addr with
  | .error _ => (none, 1)
  | .ok ids =>
    let r := scanDealInfo (bc.getDealInfo p) (pendingWith hash) 0 ids
    (r.1, r.2 + 1)

/-- The body of `WaitForDealClosed`'s tick case, as its `p`-th poll: what the call
returns, if it returns, and the number of ledger queries made. -/
def closedDealPoll (bc : Ledger) (selfHex buyerID dealID : String) (p : Nat) :
    Option (Except HubError Unit) × Nat :=
  match bc.getClosedDeal p selfHex buyerID with
  | .error err => (some (.error (.external err)), 1)
  | .ok ids =>
    let r := scanDealInfo (bc.getDealInfo p) (closedAs dealID) 0 ids
    (r.1.map fun _ => .ok (), r.2 + 1)

/-! ## What one probe returns -/

section probe

variable {bc : Ledger} {selfHex : String} {p : Nat}

/-- A probe finds a deal only as the first pending deal of the hash among the
lookups of one listing. -/
theorem findDealOnce_some {addr hash : String} {d : Deal}
    (h : (findDealOnce bc selfHex addr hash p).1 = some d) :
    ∃ ids, bc.getOpenedDeal p selfHex addr = .ok ids ∧
      ∃ i, ∃ hi : i < ids.length, bc.getDealInfo p i ids[i] = .ok d ∧
        d.status = .pending ∧ d.specificationHash = hash ∧
        ∀ j, ∀ hj : j < i, ¬ ∃ d', bc.getDealInfo p j ids[j] = .ok d' ∧
          d'.status = .pending ∧ d'.specificationHash = hash := by
  unfold findDealOnce at h
  split at h
  · cases h
  · next ids hids =>
    obtain ⟨k, hk, hinfo, hacc, -, hbefore⟩ := scanDealInfo_some (Prod.ext h rfl)
    obtain ⟨hpending, hhash⟩ := pendingWith_eq_true.mp hacc
    refine ⟨ids, hids, k, hk, by simpa using hinfo, hpending, hhash, fun j hj => ?_⟩
    simpa using hbefore j hj

/-- A probe finds the first pending deal of the hash that a lookup of its listing gives,
after the lookups before it, failed ones included. -/
theorem findDealOnce_first {addr hash : String} {ids : List BigInt}
    (hids : bc.getOpenedDeal p selfHex addr = .ok ids) (k : Nat) (hk : k < ids.length) (d : Deal)
    (hbefore : ∀ j, ∀ hj : j < k, ¬ ∃ d', bc.getDealInfo p j ids[j] = .ok d' ∧
      d'.status = .pending ∧ d'.specificationHash = hash)
    (hinfo : bc.getDealInfo p k ids[k] = .ok d) (hpending : d.status = .pending)
    (hhash : d.specificationHash = hash) :
    findDealOnce bc selfHex addr hash p = (some d, k + 2) := by
  have hscan : scanDealInfo (bc.getDealInfo p) (pendingWith hash) 0 ids = (some d, k + 1) :=
    scanDealInfo_first 0 ids k hk d (fun j hj => by simpa using hbefore j hj)
      (by simpa using hinfo) (by simp [hpending, hhash])
  simp [findDealOnce, hids, hscan]

variable {buyerID dealID : String}

theorem closedDealPoll_ok (h : (closedDealPoll bc selfHex buyerID dealID p).1 = some (.ok ())) :
    ∃ ids, bc.getClosedDeal p selfHex buyerID = .ok ids ∧
      ∃ i, ∃ hi : i < ids.length, ∃ info, bc.getDealInfo p i ids[i] = .ok info ∧
        info.id = dealID ∧ info.status = .closed := by
  unfold closedDealPoll at h
  split at h
  · cases h
  · next ids hids =>
    obtain ⟨d, hd, -⟩ := Option.map_eq_some.mp h
    obtain ⟨k, hk, hinfo, hacc, -⟩ := scanDealInfo_some (Prod.ext hd rfl)
    exact ⟨ids, hids, k, hk, d, by simpa using hinfo, closedAs_eq_true.mp hacc⟩

theorem closedDealPoll_error {err : HubError}
    (h : (closedDealPoll bc selfHex buyerID dealID p).1 = some (.error err)) :
    ∃ e, bc.getClosedDeal p selfHex buyerID = .error e ∧ err = .external e := by
  unfold closedDealPoll at h
  split at h
  · next e he => exact ⟨e, he, by cases h; rfl⟩
  · obtain ⟨_, -, h⟩ := Option.map_eq_some.mp h
    cases h

theorem closedDealPoll_of_error {e : ExtError} (he : bc.getClosedDeal p selfHex buyerID = .error e) :
    closedDealPoll bc selfHex buyerID dealID p = (some (.error (.external e)), 1) := by
  simp [closedDealPoll, he]

theorem closedDealPoll_listed (h : (closedDealPoll bc selfHex buyerID dealID p).1 = none) :
    ∃ ids, bc.getClosedDeal p selfHex buyerID = .ok ids := by
  unfold closedDealPoll at h
  split at h
  · cases h
  · next ids hids => exact ⟨ids, hids⟩

theorem closedDealPoll_none {ids : List BigInt} (hids : bc.getClosedDeal p selfHex buyerID = .ok ids)
    (h : ∀ i, ∀ hi : i < ids.length, ¬ ∃ info, bc.getDealInfo p i ids[i] = .ok info ∧
      info.id = dealID ∧ info.status = .closed) :
    closedDealPoll bc selfHex buyerID dealID p = (none, ids.length + 1) := by
  have hscan : scanDealInfo (bc.getDealInfo p) (closedAs dealID) 0 ids = (none, ids.length) :=
    scanDealInfo_none 0 ids fun k hk => by simpa using h k hk
  simp [closedDealPoll, hids, hscan]

theorem closedDealPoll_first {ids : List BigInt}
    (hids : bc.getClosedDeal p selfHex buyerID = .ok ids) (k : Nat) (hk : k < ids.length)
    (info : Deal) (hbefore : ∀ j, ∀ hj : j < k, ¬ ∃ info', bc.getDealInfo p j ids[j] = .ok info' ∧
      info'.id = dealID ∧ info'.status = .closed)
    (hinfo : bc.getDealInfo p k ids[k] = .ok info) (hid : info.id = dealID)
    (hclosed : info.status = .closed) :
    closedDealPoll bc selfHex buyerID dealID p = (some (.ok ()), k + 2) := by
  have hscan : scanDealInfo (bc.getDealInfo p) (closedAs dealID) 0 ids = (some info, k + 1) :=
    scanDealInfo_first 0 ids k hk info (fun j hj => by simpa using hbefore j hj)
      (by simpa using hinfo) (by simp [hid, hclosed])
  simp [closedDealPoll, hids, hscan]

end probe

end SonmCore.Hub
