import SonmCore.Ledger

/-!
# The hub's polling loops

`findDeals` (behind `WaitForDealCreated`) probes the ledger at once, then every three
seconds until its timeout context is done; `WaitForDealClosed` polls every five
seconds until its caller's context is done.  Both loops are
`for { select { case <-tick.C: ...; case <-ctx.Done(): return ctx.Err() } }`.

A `Select` records one evaluation of that `select` as Go defines it: a case is taken
only when it is ready, and when both are ready either may be.  A run of a loop is a
list of evaluations; with the `Ledger` it is any behaviour of the environment.
`Wait.onSelect` is one evaluation, shared by the two loops, and `Wait.selects_origin`
says which one evaluation ends a call.
-/

namespace SonmCore.Hub

inductive SelectCase where
  | tick
  | done (err : CtxErr)
  deriving DecidableEq, Repr

/-- Go's rule: the case taken is ready, the tick case when a tick waits in the
ticker's channel, the `Done` case when the context is done. -/
def SelectCase.Ready (tickReady : Bool) (ctxErr : Option CtxErr) : SelectCase → Prop
  | .tick => tickReady = true
  | .done err => ctxErr = some err

/-- One evaluation of a polling loop's `select`, when it proceeds. -/
structure Select where
  tickReady : Bool
  ctxErr : Option CtxErr
  taken : SelectCase
  taken_ready : taken.Ready tickReady ctxErr

theorem Select.taken_of_not_tickReady {s : Select} {err : CtxErr} (hctx : s.ctxErr = some err)
    (htick : s.tickReady = false) : s.taken = .done err := by
  obtain ⟨tickReady, ctxErr, taken, hready⟩ := s
  cases taken with
  | tick =>
    change tickReady = true at hready
    simp_all
  | done e =>
    change ctxErr = some e at hready
    simp_all

/-- A polling call between two `select`s: the probes it has run, the ledger queries it
has made, and what it returned, once it has. -/
structure Wait (α : Type) where
  probes : Nat
  queries : Nat
  result : Option α

def Wait.start {α : Type} : Wait α := ⟨0, 0, none⟩

variable {β : Type}

/-- Run the call's next probe; `probe p` is what the `p`-th probe returns, if the call
returns there, and the queries it makes. -/
def Wait.probe (probe : Nat → Option β × Nat) (w : Wait β) : Wait β :=
  ⟨w.probes + 1, w.queries + (probe w.probes).2, (probe w.probes).1⟩

/-- One evaluation of the `select`.  A call that has returned takes no more steps. -/
def Wait.onSelect (probe : Nat → Option (Except HubError β) × Nat)
    (w : Wait (Except HubError β)) (s : Select) : Wait (Except HubError β) :=
  match w.result with
  | some _ => w
  | none =>
    match s.taken with
    | .tick => w.probe probe
    | .done err => { w with result := some (.error (.context err)) }

def Wait.selects (probe : Nat → Option (Except HubError β) × Nat)
    (w : Wait (Except HubError β)) (sched : List Select) : Wait (Except HubError β) :=
  sched.foldl (Wait.onSelect probe) w

namespace Wait

variable {probe : Nat → Option (Except HubError β) × Nat}

@[simp] theorem selects_nil (w : Wait (Except HubError β)) : w.selects probe [] = w := rfl

@[simp] theorem selects_cons (w : Wait (Except HubError β)) (s : Select) (sched : List Select) :
    w.selects probe (s :: sched) = (w.onSelect probe s).selects probe sched := rfl

theorem selects_append (w : Wait (Except HubError β)) (pre post : List Select) :
    w.selects probe (pre ++ post) = (w.selects probe pre).selects probe post :=
  List.foldl_append _ _ _ _

theorem onSelect_of_returned {w : Wait (Except HubError β)} {r : Except HubError β}
    (h : w.result = some r) (s : Select) : w.onSelect probe s = w := by
  simp [onSelect, h]

theorem onSelect_done {w : Wait (Except HubError β)} (hw : w.result = none) {s : Select}
    {err : CtxErr} (h : s.taken = .done err) :
    w.onSelect probe s = { w with result := some (.error (.context err)) } := by
  simp [onSelect, hw, h]

theorem onSelect_tick {w : Wait (Except HubError β)} (hw : w.result = none) {s : Select}
    (h : s.taken = .tick) : w.onSelect probe s = w.probe probe := by
  simp [onSelect, hw, h]

theorem selects_of_returned {w : Wait (Except HubError β)} {r : Except HubError β}
    (h : w.result = some r) : ∀ sched, w.selects probe sched = w
  | [] => rfl
  | s :: sched => by
    rw [selects_cons, onSelect_of_returned h]
    exact selects_of_returned h sched

theorem waiting_of_selects {w : Wait (Except HubError β)} {sched : List Select}
    (h : (w.selects probe sched).result = none) : w.result = none := by
  cases hw : w.result with
  | none => rfl
  | some r => rw [selects_of_returned hw] at h; simp [hw] at h

/-- A call that returns does so at one evaluation of the `select`, and takes no step
after it. -/
theorem selects_origin :
    ∀ {w : Wait (Except HubError β)} {sched : List Select} {r : Except HubError β},
      w.result = none → (w.selects probe sched).result = some r →
      ∃ pre s post, sched = pre ++ s :: post ∧ (w.selects probe pre).result = none ∧
        w.selects probe sched = (w.selects probe pre).onSelect probe s
  | _, [], _, hw, h => by simp [hw] at h
  | w, s :: rest, r, hw, h => by
    cases hs : (w.onSelect probe s).result with
    | some r' => exact ⟨[], s, rest, rfl, hw, selects_of_returned hs rest⟩
    | none =>
      rw [selects_cons] at h
      obtain ⟨pre, s', post, rfl, hpre, heq⟩ := selects_origin hs h
      exact ⟨s :: pre, s', post, rfl, hpre, heq⟩

theorem selects_result {w : Wait (Except HubError β)} {sched : List Select}
    {r : Except HubError β} (hw : w.result = none) (h : (w.selects probe sched).result = some r) :
    (∃ s ∈ sched, ∃ err, s.taken = .done err ∧ r = .error (.context err)) ∨
      ∃ p < (w.selects probe sched).probes, (probe p).1 = some r := by
  obtain ⟨pre, s, post, rfl, hpre, heq⟩ := selects_origin hw h
  rw [heq] at h ⊢
  cases htaken : s.taken with
  | tick =>
    rw [onSelect_tick hpre htaken] at h ⊢
    exact .inr ⟨_, Nat.lt_succ_self _, h⟩
  | done err =>
    rw [onSelect_done hpre htaken] at h
    exact .inl ⟨s, by simp, err, htaken, (Option.some.inj h).symm⟩

theorem probes_of_waiting :
    ∀ {w : Wait (Except HubError β)} {sched : List Select},
      (w.selects probe sched).result = none →
      ∀ p, w.probes ≤ p → p < (w.selects probe sched).probes → (probe p).1 = none
  | _, [], _, p, h1, h2 => by simp only [selects_nil] at h2; omega
  | w, s :: rest, h, p, h1, h2 => by
    have hw := waiting_of_selects h
    rw [selects_cons] at h h2
    cases htaken : s.taken with
    | tick =>
      rw [onSelect_tick hw htaken] at h h2
      rcases Nat.lt_or_ge p (w.probes + 1) with hp | hp
      · obtain rfl : p = w.probes := by omega
        exact waiting_of_selects h
      · exact probes_of_waiting h p hp h2
    | done err =>
      rw [onSelect_done hw htaken, selects_of_returned rfl] at h
      simp at h

/-- At a `select` that takes `Done`, which Go must when the context is done and no
tick waits, a waiting call returns `ctx.Err()` there and makes no further query. -/
theorem selects_at_done (w : Wait (Except HubError β)) (pre post : List Select) (s : Select)
    (err : CtxErr) (hwait : (w.selects probe pre).result = none)
    (hdone : s.taken = .done err ∨ (s.ctxErr = some err ∧ s.tickReady = false)) :
    w.selects probe (pre ++ s :: post) =
      { w.selects probe pre with result := some (.error (.context err)) } := by
  have htaken : s.taken = .done err :=
    hdone.elim id fun h => Select.taken_of_not_tickReady h.1 h.2
  rw [selects_append, selects_cons, onSelect_done hwait htaken]
  exact selects_of_returned rfl post

/-- At a `select` that takes the tick, a waiting call whose probe there returns ends
with that probe, and makes no query after it. -/
theorem selects_at_probe (w : Wait (Except HubError β)) (pre post : List Select) (s : Select)
    (hwait : (w.selects probe pre).result = none) (htick : s.taken = .tick)
    {r : Except HubError β} (hr : (probe (w.selects probe pre).probes).1 = some r) :
    w.selects probe (pre ++ s :: post) = (w.selects probe pre).probe probe := by
  rw [selects_append, selects_cons, onSelect_tick hwait htick]
  exact selects_of_returned hr post

/-- When every `select` takes the tick, the loop is a plain search over its next probes:
it returns what the first of them to return gives, and runs no probe after that one. -/
theorem selects_ticks : ∀ {w : Wait (Except HubError β)} {sched : List Select},
    w.result = none → (∀ s ∈ sched, s.taken = .tick) →
    (w.selects probe sched).result =
        (List.range' w.probes sched.length).findSome? (fun p => (probe p).1) ∧
      (w.selects probe sched).probes =
        ((List.range' w.probes sched.length).find? fun p => (probe p).1.isSome).elim
          (w.probes + sched.length) (· + 1)
  | w, [], hw, _ => by simp [hw]
  | w, s :: rest, hw, hticks => by
    rw [selects_cons, onSelect_tick hw (hticks s (List.mem_cons_self _ _)), List.length_cons,
      List.range'_succ, List.findSome?_cons, List.find?_cons]
    cases hp : (probe w.probes).1 with
    | some r =>
      rw [selects_of_returned (show (w.probe probe).result = some r from hp)]
      simp [Wait.probe, hp]
    | none =>
      have hlen : w.probes + (rest.length + 1) = (w.probe probe).probes + rest.length := by
        simp only [Wait.probe]
        omega
      rw [hlen]
      exact selects_ticks hp fun s hs => hticks s (List.mem_cons_of_mem _ hs)

end Wait

/-- `findDealOnce` as the probe of `findDeals`. -/
def dealProbe (bc : Ledger) (selfHex addr hash : String) (p : Nat) :
    Option (Except HubError Deal) × Nat :=
  ((findDealOnce bc selfHex addr hash p).1.map .ok, (findDealOnce bc selfHex addr hash p).2)

/-- `findDeals`: a probe at once, then the loop; `sched` is the loop's `select`s. -/
def findDeals (bc : Ledger) (selfHex addr hash : String) (sched : List Select) :
    Wait (Except HubError Deal) :=
  (Wait.start.probe (dealProbe bc selfHex addr hash)).selects (dealProbe bc selfHex addr hash) sched

structure Order where
  byuerID : String

/-- `structs.DealRequest`, with the fields `WaitForDealCreated` reads. -/
structure DealRequest where
  order : Order
  specHash : String

def waitForDealCreated (bc : Ledger) (selfHex : String) (request : DealRequest)
    (sched : List Select) : Wait (Except HubError Deal) :=
  findDeals bc selfHex request.order.byuerID request.specHash sched

def waitForDealClosed (bc : Ledger) (selfHex dealID buyerID : String) (sched : List Select) :
    Wait (Except HubError Unit) :=
  Wait.start.selects (closedDealPoll bc selfHex buyerID dealID) sched

/-! ## Cancellation -/

/-- A context that is done while a tick waits: Go may take the tick.  `WaitForDealClosed`
then queries the ledger twice and returns success after the cancellation, and
`findDeals` probes again and returns a deal found after its deadline. -/
theorem pollingLoops_succeed_after_cancel :
    waitForDealClosed ⟨fun _ _ _ => .ok [], fun _ _ _ => .ok [7],
        fun _ _ _ => .ok ⟨"7", "", "", .closed⟩⟩ "0xhub" "7" "0xbuyer"
        [⟨true, some .canceled, .tick, rfl⟩] = ⟨1, 2, some (.ok ())⟩ ∧
    findDeals ⟨fun p _ _ => .ok (if p = 0 then [] else [7]), fun _ _ _ => .ok [],
        fun _ _ _ => .ok ⟨"7", "0xhub", "h", .pending⟩⟩ "0xhub" "0xbuyer" "h"
        [⟨true, some .deadlineExceeded, .tick, rfl⟩] =
      ⟨2, 3, some (.ok ⟨"7", "0xhub", "h", .pending⟩)⟩ :=
  ⟨rfl, rfl⟩

/-- In both loops, a waiting call returns `ctx.Err()` at a `select` that takes `Done`,
which it must when the context is done and no tick waits, and then makes no ledger
query: the call ends as it stood before that `select`, with that result. -/
theorem pollingLoops_return_at_done :
    (∀ bc selfHex addr hash pre (s : Select) post err,
      (findDeals bc selfHex addr hash pre).result = none →
      (s.taken = .done err ∨ (s.ctxErr = some err ∧ s.tickReady = false)) →
      findDeals bc selfHex addr hash (pre ++ s :: post) =
        { findDeals bc selfHex addr hash pre with result := some (.error (.context err)) }) ∧
    (∀ bc selfHex dealID buyerID pre (s : Select) post err,
      (waitForDealClosed bc selfHex dealID buyerID pre).result = none →
      (s.taken = .done err ∨ (s.ctxErr = some err ∧ s.tickReady = false)) →
      waitForDealClosed bc selfHex dealID buyerID (pre ++ s :: post) =
        { waitForDealClosed bc selfHex dealID buyerID pre with
          result := some (.error (.context err)) }) :=
  ⟨fun _ _ _ _ pre s post err hwait hdone => Wait.selects_at_done _ pre post s err hwait hdone,
   fun _ _ _ _ pre s post err hwait hdone => Wait.selects_at_done _ pre post s err hwait hdone⟩

/-- One probe or poll, then a `select` where the context is cancelled and no tick waits:
both calls return `ctx.Err()` there, whatever follows. -/
theorem pollingLoops_return_at_done_canceled :
    let bc : Ledger := ⟨fun _ _ _ => .ok [], fun _ _ _ => .ok [], fun _ _ _ => .error ⟨"unknown"⟩⟩
    let tick : Select := ⟨true, none, .tick, rfl⟩
    let done : Select := ⟨false, some .canceled, .done .canceled, rfl⟩
    ((findDeals bc "0xhub" "0xbuyer" "h" [tick]).result = none ∧
      done.ctxErr = some .canceled ∧ done.tickReady = false ∧
      findDeals bc "0xhub" "0xbuyer" "h" ([tick] ++ done :: [tick]) =
        ⟨2, 2, some (.error (.context .canceled))⟩) ∧
    ((waitForDealClosed bc "0xhub" "7" "0xbuyer" [tick]).result = none ∧
      waitForDealClosed bc "0xhub" "7" "0xbuyer" ([tick] ++ done :: [tick]) =
        ⟨1, 1, some (.error (.context .canceled))⟩) :=
  ⟨⟨rfl, rfl, rfl, pollingLoops_return_at_done.1 _ _ _ _ _ _ _ _ rfl (.inr ⟨rfl, rfl⟩)⟩,
    ⟨rfl, pollingLoops_return_at_done.2 _ _ _ _ _ _ _ _ rfl (.inr ⟨rfl, rfl⟩)⟩⟩

/-! ## What the calls return -/

theorem findDeals_first_probe {bc : Ledger} {selfHex addr hash : String} {sched : List Select}
    {r : Except HubError Deal} (h : (findDeals bc selfHex addr hash sched).result = some r) :
    (∃ s ∈ sched, ∃ err, s.taken = .done err ∧ r = .error (.context err)) ∨
      ∃ p < (findDeals bc selfHex addr hash sched).probes,
        (dealProbe bc selfHex addr hash p).1 = some r := by
  unfold findDeals at h ⊢
  cases h0 : (Wait.start.probe (dealProbe bc selfHex addr hash)).result with
  | none => exact Wait.selects_result h0 h
  | some r0 =>
    rw [Wait.selects_of_returned h0] at h ⊢
    exact .inr ⟨0, Nat.zero_lt_one, h⟩

/-- `findDeals` probes the ledger at once: when the first listing holds a pending deal of
the request's hash, the call returns the first such deal there, whatever its `select`s
do, with that probe's queries alone. -/
theorem findDeals_immediate_probe (bc : Ledger) (selfHex addr hash : String)
    (sched : List Select) {ids : List BigInt} (hids : bc.getOpenedDeal 0 selfHex addr = .ok ids)
    (k : Nat) (hk : k < ids.length) (d : Deal)
    (hbefore : ∀ j, ∀ hj : j < k, ¬ ∃ d', bc.getDealInfo 0 j ids[j] = .ok d' ∧
      d'.status = .pending ∧ d'.specificationHash = hash)
    (hinfo : bc.getDealInfo 0 k ids[k] = .ok d) (hpending : d.status = .pending)
    (hhash : d.specificationHash = hash) :
    findDeals bc selfHex addr hash sched = ⟨1, k + 2, some (.ok d)⟩ := by
  have hprobe := findDealOnce_first hids k hk d hbefore hinfo hpending hhash
  have hfirst : (Wait.start.probe (dealProbe bc selfHex addr hash)).result = some (.ok d) := by
    simp [Wait.probe, Wait.start, dealProbe, hprobe]
  rw [findDeals, Wait.selects_of_returned hfirst]
  simp [Wait.probe, Wait.start, dealProbe, hprobe]

/-- The first listing holds a failed lookup, then the pending deal. -/
theorem findDeals_immediate_probe_second :
    let bc : Ledger := ⟨fun _ _ _ => .ok [5, 7], fun _ _ _ => .ok [],
      fun _ i _ => if i = 0 then .error ⟨"lookup failed"⟩ else .ok ⟨"7", "0xhub", "h", .pending⟩⟩
    bc.getOpenedDeal 0 "0xhub" "0xbuyer" = .ok [5, 7] ∧
    bc.getDealInfo 0 0 5 = .error ⟨"lookup failed"⟩ ∧
    bc.getDealInfo 0 1 7 = .ok ⟨"7", "0xhub", "h", .pending⟩ ∧
    findDeals bc "0xhub" "0xbuyer" "h" [⟨false, some .canceled, .done .canceled, rfl⟩] =
      ⟨1, 3, some (.ok ⟨"7", "0xhub", "h", .pending⟩)⟩ :=
  have hbefore : ∀ j, ∀ hj : j < 1, ¬ ∃ d', (if j = 0 then .error ⟨"lookup failed"⟩ else
      .ok ⟨"7", "0xhub", "h", .pending⟩ : Except ExtError Deal) = .ok d' ∧
      d'.status = .pending ∧ d'.specificationHash = "h" := by
    intro j hj
    obtain rfl : j = 0 := by omega
    simp
  ⟨rfl, rfl, rfl,
    findDeals_immediate_probe _ "0xhub" "0xbuyer" "h" _ rfl 1 (by decide) _ hbefore rfl rfl rfl⟩

theorem dealProbe_ok {bc : Ledger} {selfHex addr hash : String} {p : Nat} {r : Except HubError Deal}
    (h : (dealProbe bc selfHex addr hash p).1 = some r) :
    ∃ d, r = .ok d ∧ (findDealOnce bc selfHex addr hash p).1 = some d := by
  obtain ⟨d, hd, rfl⟩ := Option.map_eq_some.mp h
  exact ⟨d, rfl, hd⟩

/-- `WaitForDealCreated` returns a deal only as the first pending deal of the request's
hash among the lookups of one probe's listing; every error it returns is `ctx.Err()`
taken at a `select`; and a waiting call returns at a `select` where the context is done
and no tick waits. -/
theorem waitForDealCreated_result (bc : Ledger) (selfHex : String) (request : DealRequest)
    (sched : List Select) :
    let w := waitForDealCreated bc selfHex request sched
    (∀ d, w.result = some (.ok d) → ∃ p < w.probes, ∃ ids,
      bc.getOpenedDeal p selfHex request.order.byuerID = .ok ids ∧
      ∃ i, ∃ hi : i < ids.length, bc.getDealInfo p i ids[i] = .ok d ∧
        d.status = .pending ∧ d.specificationHash = request.specHash ∧
        ∀ j, ∀ hj : j < i, ¬ ∃ d', bc.getDealInfo p j ids[j] = .ok d' ∧
          d'.status = .pending ∧ d'.specificationHash = request.specHash) ∧
    (∀ err, w.result = some (.error err) →
      ∃ s ∈ sched, ∃ e, s.taken = .done e ∧ err = .context e) ∧
    (∀ pre s post err, sched = pre ++ s :: post →
      (waitForDealCreated bc selfHex request pre).result = none →
      s.ctxErr = some err → s.tickReady = false →
      w.result = some (.error (.context err))) := by
  refine ⟨fun d h => ?_, fun err h => ?_, fun pre s post err hsched hwait hctx htick => ?_⟩
  · rcases findDeals_first_probe h with ⟨_, _, _, _, hr⟩ | ⟨p, hp, hprobe⟩
    · cases hr
    · obtain ⟨d', hd', hfound⟩ := dealProbe_ok hprobe
      cases hd'
      exact ⟨p, hp, findDealOnce_some hfound⟩
  · rcases findDeals_first_probe h with hdone | ⟨p, -, hprobe⟩
    · obtain ⟨s, hs, e, htaken, he⟩ := hdone
      exact ⟨s, hs, e, htaken, Except.error.inj he⟩
    · obtain ⟨d, hd, -⟩ := dealProbe_ok hprobe
      cases hd
  · simp only [waitForDealCreated, hsched, findDeals] at hwait ⊢
    rw [Wait.selects_at_done _ pre post s err hwait (.inr ⟨hctx, htick⟩)]

/-- `WaitForDealClosed` returns `nil` only after a lookup of one poll's listing gave
the deal closed.  A poll whose `GetClosedDeal` fails ends the call there, with that
error and no query after it, and a call returns such an error only so, after every
earlier listing succeeded.  A failing `GetDealInfo` neither ends a poll nor skips the ids after it.
Every other error is `ctx.Err()` taken at a `select`. -/
theorem waitForDealClosed_result (bc : Ledger) (selfHex dealID buyerID : String)
    (sched : List Select) :
    let w := waitForDealClosed bc selfHex dealID buyerID sched
    (w.result = some (.ok ()) → ∃ p < w.probes, ∃ ids,
      bc.getClosedDeal p selfHex buyerID = .ok ids ∧
      ∃ i, ∃ hi : i < ids.length, ∃ info, bc.getDealInfo p i ids[i] = .ok info ∧
        info.id = dealID ∧ info.status = .closed) ∧
    (∀ e, w.result = some (.error (.external e)) → ∃ pre s post w0,
      sched = pre ++ s :: post ∧ waitForDealClosed bc selfHex dealID buyerID pre = w0 ∧
      w0.result = none ∧ s.taken = .tick ∧
      (∀ p < w0.probes, ∃ ids, bc.getClosedDeal p selfHex buyerID = .ok ids) ∧
      bc.getClosedDeal w0.probes selfHex buyerID = .error e ∧
      w = ⟨w0.probes + 1, w0.queries + 1, some (.error (.external e))⟩) ∧
    (∀ pre s post e, sched = pre ++ s :: post →
      let w0 := waitForDealClosed bc selfHex dealID buyerID pre
      w0.result = none → s.taken = .tick → bc.getClosedDeal w0.probes selfHex buyerID = .error e →
      w = ⟨w0.probes + 1, w0.queries + 1, some (.error (.external e))⟩) ∧
    (∀ p ids, bc.getClosedDeal p selfHex buyerID = .ok ids →
      ((∀ i, ∀ hi : i < ids.length, ¬ ∃ info, bc.getDealInfo p i ids[i] = .ok info ∧
          info.id = dealID ∧ info.status = .closed) →
        closedDealPoll bc selfHex buyerID dealID p = (none, ids.length + 1)) ∧
      (∀ k, ∀ hk : k < ids.length, ∀ info,
        (∀ j, ∀ hj : j < k, ¬ ∃ info', bc.getDealInfo p j ids[j] = .ok info' ∧
          info'.id = dealID ∧ info'.status = .closed) →
        bc.getDealInfo p k ids[k] = .ok info → info.id = dealID → info.status = .closed →
        closedDealPoll bc selfHex buyerID dealID p = (some (.ok ()), k + 2))) ∧
    (∀ err, w.result = some (.error err) →
      (∃ e, err = .external e) ∨ ∃ s ∈ sched, ∃ e, s.taken = .done e ∧ err = .context e) := by
  refine ⟨fun h => ?_, fun e h => ?_, fun pre s post e hsched hwait htick he => ?_,
    fun p ids hids => ⟨closedDealPoll_none hids, closedDealPoll_first hids⟩, fun err h => ?_⟩
  · rcases Wait.selects_result rfl h with ⟨_, _, _, _, hr⟩ | ⟨p, hp, hpoll⟩
    · cases hr
    · exact ⟨p, hp, closedDealPoll_ok hpoll⟩
  · obtain ⟨pre, s, post, rfl, hpre, heq⟩ := Wait.selects_origin rfl h
    refine ⟨pre, s, post, _, rfl, rfl, hpre, ?_⟩
    unfold waitForDealClosed at h ⊢
    cases htaken : s.taken with
    | done err =>
      rw [heq, Wait.onSelect_done hpre htaken] at h
      cases h
    | tick =>
      rw [heq, Wait.onSelect_tick hpre htaken] at h ⊢
      obtain ⟨e', he', hee⟩ := closedDealPoll_error h
      cases hee
      refine ⟨rfl, fun p hp =>
        closedDealPoll_listed (Wait.probes_of_waiting hpre p (Nat.zero_le p) hp), he', ?_⟩
      simp [Wait.probe, closedDealPoll_of_error he']
  · have hpoll := @closedDealPoll_of_error bc selfHex _ buyerID dealID e he
    unfold waitForDealClosed at hwait hpoll ⊢
    rw [hsched, Wait.selects_at_probe _ pre post s hwait htick (congrArg Prod.fst hpoll)]
    simp [Wait.probe, hpoll]
  · rcases Wait.selects_result rfl h with ⟨s, hs, e, htaken, he⟩ | ⟨p, -, hpoll⟩
    · exact .inr ⟨s, hs, e, htaken, Except.error.inj he⟩
    · obtain ⟨e, -, rfl⟩ := closedDealPoll_error hpoll
      exact .inl ⟨e, rfl⟩

/-! ## A context that is never done -/

theorem findDeals_eq_selects (bc : Ledger) (selfHex addr hash : String) (sched : List Select) :
    findDeals bc selfHex addr hash sched =
      Wait.start.selects (dealProbe bc selfHex addr hash) (⟨true, none, .tick, rfl⟩ :: sched) :=
  rfl

/-- While every `select` takes the tick (the context is not done before the call
returns), both loops are plain searches.  `WaitForDealCreated` returns what the first
of its probes `0, ..., n` to find a deal finds, its first probe running before any
`select`; `WaitForDealClosed` returns at the first of its polls `0, ..., n - 1` that ends
it.  Neither runs a probe after that one. -/
theorem pollingLoops_all_ticks (bc : Ledger) (selfHex : String) (sched : List Select)
    (hticks : ∀ s ∈ sched, s.taken = .tick) :
    (∀ request : DealRequest,
      (waitForDealCreated bc selfHex request sched).result =
        (List.range (sched.length + 1)).findSome? (fun p =>
          (dealProbe bc selfHex request.order.byuerID request.specHash p).1) ∧
      (waitForDealCreated bc selfHex request sched).probes =
        ((List.range (sched.length + 1)).find? fun p =>
          (dealProbe bc selfHex request.order.byuerID request.specHash p).1.isSome).elim
          (sched.length + 1) (· + 1)) ∧
    (∀ dealID buyerID,
      (waitForDealClosed bc selfHex dealID buyerID sched).result =
        (List.range sched.length).findSome? (fun p =>
          (closedDealPoll bc selfHex buyerID dealID p).1) ∧
      (waitForDealClosed bc selfHex dealID buyerID sched).probes =
        ((List.range sched.length).find? fun p =>
          (closedDealPoll bc selfHex buyerID dealID p).1.isSome).elim sched.length (· + 1)) := by
  refine ⟨fun request => ?_, fun dealID buyerID => ?_⟩
  · have h := @Wait.selects_ticks _ (dealProbe bc selfHex request.order.byuerID request.specHash)
      Wait.start (⟨true, none, .tick, rfl⟩ :: sched) rfl (List.forall_mem_cons.mpr ⟨rfl, hticks⟩)
    rw [waitForDealCreated, findDeals_eq_selects]
    simpa [List.range_eq_range', Wait.start] using h
  · have h := @Wait.selects_ticks _ (closedDealPoll bc selfHex buyerID dealID) Wait.start sched
      rfl hticks
    simpa [List.range_eq_range', Wait.start] using h

/-- Two ticks, with the deal listed closed at the second poll. -/
theorem pollingLoops_all_ticks_closed_second :
    let bc : Ledger := ⟨fun _ _ _ => .ok [], fun p _ _ => .ok (if p = 0 then [] else [7]),
      fun _ _ _ => .ok ⟨"7", "", "", .closed⟩⟩
    let sched : List Select := [⟨true, none, .tick, rfl⟩, ⟨true, some .canceled, .tick, rfl⟩]
    (∀ s ∈ sched, s.taken = .tick) ∧
    ((∀ request : DealRequest,
      (waitForDealCreated bc "0xhub" request sched).result =
        (List.range (sched.length + 1)).findSome? (fun p =>
          (dealProbe bc "0xhub" request.order.byuerID request.specHash p).1) ∧
      (waitForDealCreated bc "0xhub" request sched).probes =
        ((List.range (sched.length + 1)).find? fun p =>
          (dealProbe bc "0xhub" request.order.byuerID request.specHash p).1.isSome).elim
          (sched.length + 1) (· + 1)) ∧
    (∀ dealID buyerID,
      (waitForDealClosed bc "0xhub" dealID buyerID sched).result =
        (List.range sched.length).findSome? (fun p =>
          (closedDealPoll bc "0xhub" buyerID dealID p).1) ∧
      (waitForDealClosed bc "0xhub" dealID buyerID sched).probes =
        ((List.range sched.length).find? fun p =>
          (closedDealPoll bc "0xhub" buyerID dealID p).1.isSome).elim sched.length (· + 1))) :=
  have hticks : ∀ s ∈ ([⟨true, none, .tick, rfl⟩, ⟨true, some .canceled, .tick, rfl⟩] :
      List Select), s.taken = .tick := by
    simp
  ⟨hticks, pollingLoops_all_ticks _ "0xhub" _ hticks⟩

end SonmCore.Hub
