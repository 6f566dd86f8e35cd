import SonmCore.DirectorySweep

/-!
# The directory as a concurrent system

Any number of peers call `Announce` and `Resolve` while the janitor goroutine sweeps.
Each call's locked section is one step of the machine below, and the janitor takes
two: it reads the clock and computes its deadline outside the lock, then scans under
it, so peers' calls can fall between the two.  A run is any list of steps, each with
the clock reading the step sees.  Each step leaves a label saying what it did, the
way the locator's log lines do.

`Label.apply` is the directory the spec describes, per identity: the last announced
record, dropped by a later scan whose deadline is past its stamp.  `run_lookup` says
the machine computes exactly that after every run.  The last section shows that the
janitor's unlocked deadline read is harmless: the calls that fall between it and the
scan can be moved after the scan.
-/

namespace SonmCore.Directory

/-- The janitor goroutine: waiting for the next tick, or holding the deadline it
computed and about to take the lock. -/
inductive Janitor where
  | waiting
  | cleaning (deadline : Time)
  deriving DecidableEq, Repr

structure Locator where
  db : DB
  janitor : Janitor

/-- `NewLocator`: an empty map, and the janitor started. -/
def Locator.init : Locator := ⟨∅, .waiting⟩

def Code.name : Code → String
  | .dataLoss => "DataLoss"
  | .unauthenticated => "Unauthenticated"

/-- `err.Error()`, a gRPC status as `grpc/status` prints it. -/
def Error.errorText : Error → String
  | .status code msg => "rpc error: code = " ++ code.name ++ " desc = " ++ msg
  | .text msg => msg

/-- `errors.Wrap` of `github.com/pkg/errors`: `nil` for a `nil` error, and otherwise the
message before the cause's text. -/
def wrapError (err : Option Error) (msg : String) : Option Error :=
  err.map fun e => .text (msg ++ ": " ++ e.errorText)

/-- `NewLocator`, up to its network setup: `key` is the private key passed in and
`rotatorErr` the error of `util.NewHitlessCertRotator`, if it fails. -/
def newLocator {κ : Type} (key : Option κ) (rotatorErr : Option Error) :
    Option Locator × Option Error :=
  match key with
  | none =>
    let err : Option Error := none
    (none, wrapError err "private key should be provided")
  | some _ =>
    match rotatorErr with
    | some err => (none, some err)
    | none => (some Locator.init, none)

inductive Action where
  | announce (ctx : Context) (req : AnnounceRequest)
  | resolve (ethAddr : Address)
  | janitor
  deriving DecidableEq, Repr

/-- One step of a run and the clock reading it sees. -/
structure Event where
  now : Time
  action : Action
  deriving DecidableEq, Repr

structure CleanCounts where
  total : Nat
  keep : Nat
  del : Nat
  deriving DecidableEq, Repr

inductive Label where
  | announced (n : Node)
  | rejected (err : Error)
  | resolved (ethAddr : Address) (result : Except Error Node)
  | deadlineSet (deadline : Time)
  | cleaned (deadline : Time) (counts : CleanCounts)

/-- `Announce` at clock reading `now`: the caller's identity from `extractEthAddr`, then
`putAnnounce` of a record with the request's endpoints and a zero `ts`.  The label is
the error returned, or the record stored. -/
def Locator.announce (l : Locator) (ctx : Context) (req : AnnounceRequest) (now : Time) :
    Locator × Label :=
  match extractEthAddr ctx with
  | .error err => (l, .rejected err)
  | .ok ethAddr =>
    ({ l with db := putAnnounce l.db ⟨ethAddr, req.ipAddr, 0⟩ now },
      .announced ⟨ethAddr, req.ipAddr, now⟩)

/-- One step.  A scan walks the map in `db.keys` order; by `traverseAndClean_lookup`
every order the runtime may choose leaves the same map. -/
def Locator.step (conf : LocatorConfig) (l : Locator) (e : Event) : Locator × Label :=
  match e.action with
  | .announce ctx req => l.announce ctx req e.now
  | .resolve ethAddr => (l, .resolved ethAddr (getResolve l.db ethAddr))
  | .janitor =>
    match l.janitor with
    | .waiting =>
      let deadline := sweepDeadline conf e.now
      ({ l with janitor := .cleaning deadline }, .deadlineSet deadline)
    | .cleaning deadline =>
      let s := traverseAndClean deadline l.db.keys l.db
      (⟨s.db, .waiting⟩, .cleaned deadline ⟨s.total, s.keep, s.del⟩)

def Locator.run (conf : LocatorConfig) : Locator → List Event → Locator × List Label
  | l, [] => (l, [])
  | l, e :: es =>
    let r := l.step conf e
    let rs := Locator.run conf r.1 es
    (rs.1, r.2 :: rs.2)

/-- The identity an event announces successfully, if it is an announce that passes
`extractEthAddr`. -/
def Event.announcer (e : Event) : Option Address :=
  match e.action with
  | .announce ctx _ => (extractEthAddr ctx).toOption
  | _ => none

/-- The spec's directory for one identity `a`, after one more label. -/
def Label.apply (a : Address) (o : Option Node) : Label → Option Node
  | .announced n => if n.ethAddr = a then some n else o
  | .cleaned deadline _ => o.filter (survives deadline)
  | _ => o

/-- Whether the label lets the record `n` stand. -/
def Label.keeps (n : Node) : Label → Bool
  | .cleaned deadline _ => survives deadline n
  | _ => true

/-- A step's effect on the record of `a` is the one its label describes. -/
theorem Locator.step_lookup (conf : LocatorConfig) (l : Locator) (e : Event) (a : Address) :
    (l.step conf e).1.db.lookup a = (l.step conf e).2.apply a (l.db.lookup a) := by
  rcases e with ⟨now, action⟩
  cases action with
  | announce ctx req =>
    cases h : extractEthAddr ctx with
    | error err => simp [Locator.step, Locator.announce, h, Label.apply]
    | ok b =>
      simp only [Locator.step, Locator.announce, h, Label.apply, lookup_putAnnounce]
      by_cases hab : a = b
      · subst hab; simp
      · simp [hab, Ne.symm hab]
  | resolve ethAddr => rfl
  | janitor =>
    cases hj : l.janitor with
    | waiting => simp [Locator.step, hj, Label.apply]
    | cleaning d =>
      simpa [Locator.step, hj, Label.apply] using traverseAndClean_lookup (List.Perm.refl _) a

/-- Everything one step can do. -/
theorem Locator.step_cases (conf : LocatorConfig) (l : Locator) (e : Event) :
    (∃ err, l.step conf e = (l, .rejected err)) ∨
    (∃ n, l.step conf e = ({ l with db := l.db.insert n.ethAddr n }, .announced n) ∧
      n.ts = e.now) ∨
    (∃ a r, l.step conf e = (l, .resolved a r)) ∨
    (l.janitor = .waiting ∧ e.action = .janitor ∧ l.step conf e =
      ({ l with janitor := .cleaning (sweepDeadline conf e.now) },
        .deadlineSet (sweepDeadline conf e.now))) ∨
    (∃ d, l.janitor = .cleaning d ∧ e.action = .janitor ∧ ∃ cc, l.step conf e =
      (⟨(traverseAndClean d l.db.keys l.db).db, .waiting⟩, .cleaned d cc)) := by
  rcases e with ⟨now, action⟩
  cases action with
  | announce ctx req =>
    cases h : extractEthAddr ctx with
    | error err => exact .inl ⟨err, by simp [Locator.step, Locator.announce, h]⟩
    | ok b => exact .inr (.inl ⟨⟨b, req.ipAddr, now⟩, by simp [Locator.step, Locator.announce, h, putAnnounce], rfl⟩)
  | resolve a => exact .inr (.inr (.inl ⟨a, _, rfl⟩))
  | janitor =>
    cases hj : l.janitor with
    | waiting => exact .inr (.inr (.inr (.inl ⟨rfl, rfl, by simp [Locator.step, hj]⟩)))
    | cleaning d =>
      exact .inr (.inr (.inr (.inr ⟨d, rfl, rfl, _, by simp only [Locator.step, hj]; rfl⟩)))

theorem Locator.run_lookup (conf : LocatorConfig) :
    ∀ (l : Locator) (evs : List Event) (a : Address),
      (l.run conf evs).1.db.lookup a = (l.run conf evs).2.foldl (Label.apply a) (l.db.lookup a)
  | l, [], a => rfl
  | l, e :: es, a => by
    simp only [Locator.run, List.foldl_cons, ← Locator.step_lookup]
    exact Locator.run_lookup conf _ es a

theorem Locator.run_append (conf : LocatorConfig) :
    ∀ (l : Locator) (evs evs' : List Event),
      l.run conf (evs ++ evs') =
        ((((l.run conf evs).1).run conf evs').1,
          (l.run conf evs).2 ++ (((l.run conf evs).1).run conf evs').2)
  | l, [], evs' => rfl
  | l, e :: es, evs' => by
    rw [List.cons_append]
    simp only [Locator.run]
    rw [Locator.run_append conf _ es evs']
    rfl

theorem Locator.step_announced {conf : LocatorConfig} {l : Locator} {e : Event} {n : Node}
    (h : (l.step conf e).2 = .announced n) :
    ∃ ctx req, e.action = .announce ctx req ∧ extractEthAddr ctx = .ok n.ethAddr ∧
      n = ⟨n.ethAddr, req.ipAddr, e.now⟩ := by
  rcases e with ⟨now, action⟩
  cases action with
  | announce ctx req =>
    cases hx : extractEthAddr ctx with
    | error err => simp [Locator.step, Locator.announce, hx] at h
    | ok b =>
      simp only [Locator.step, Locator.announce, hx, Label.announced.injEq] at h
      subst h
      exact ⟨ctx, req, rfl, hx, rfl⟩
  | resolve ethAddr => simp [Locator.step] at h
  | janitor =>
    simp only [Locator.step] at h
    split at h <;> simp at h

theorem Locator.step_cleaned {conf : LocatorConfig} {l : Locator} {e : Event} {d : Time}
    {cc : CleanCounts} (h : (l.step conf e).2 = .cleaned d cc) : l.janitor = .cleaning d := by
  rcases Locator.step_cases conf l e with
    ⟨_, h'⟩ | ⟨_, h', _⟩ | ⟨_, _, h'⟩ | ⟨_, _, h'⟩ | ⟨d', hj, _, _, h'⟩ <;>
    rw [h'] at h <;> simp only [Label.cleaned.injEq, reduceCtorEq] at h
  rw [hj, h.1]

theorem Locator.run_announced_event {conf : LocatorConfig} :
    ∀ {l : Locator} {evs : List Event} {n : Node}, .announced n ∈ (l.run conf evs).2 →
      ∃ e ∈ evs, ∃ ctx req, e.action = .announce ctx req ∧
        extractEthAddr ctx = .ok n.ethAddr ∧ n = ⟨n.ethAddr, req.ipAddr, e.now⟩
  | l, [], n, h => by simp [Locator.run] at h
  | l, e :: es, n, h => by
    simp only [Locator.run, List.mem_cons] at h
    rcases h with h | h
    · exact ⟨e, by simp, Locator.step_announced h.symm⟩
    · obtain ⟨e', he', hstep⟩ := Locator.run_announced_event h
      exact ⟨e', by simp [he'], hstep⟩

theorem Locator.run_announced {conf : LocatorConfig} {l : Locator} {evs : List Event} {n : Node}
    (h : .announced n ∈ (l.run conf evs).2) : ∃ e ∈ evs, e.announcer = some n.ethAddr := by
  obtain ⟨e, he, ctx, req, hact, hx, -⟩ := Locator.run_announced_event h
  exact ⟨e, he, by simp [Event.announcer, hact, hx, Except.toOption]⟩

theorem foldl_apply_some {a : Address} :
    ∀ (ls : List Label) (o : Option Node) (n : Node), ls.foldl (Label.apply a) o = some n →
      o = some n ∨ (.announced n ∈ ls ∧ n.ethAddr = a)
  | [], _, _, h => .inl h
  | l :: ls, o, n, h => by
    rcases foldl_apply_some ls _ n h with h' | ⟨hmem, ha⟩
    · cases l with
      | announced m =>
        simp only [Label.apply] at h'
        split_ifs at h' with hm
        · cases h'
          exact .inr ⟨by simp, hm⟩
        · exact .inl h'
      | cleaned d c => exact .inl (Option.mem_def.mp (Option.filter_eq_some.mp h').1)
      | _ => exact .inl h'
    · exact .inr ⟨List.mem_cons_of_mem _ hmem, ha⟩

theorem foldl_apply_of_not_announced {a : Address} :
    ∀ (ls : List Label) (o : Option Node), (∀ n, .announced n ∈ ls → n.ethAddr ≠ a) →
      ls.foldl (Label.apply a) o = o.filter (fun n => ls.all (Label.keeps n))
  | [], o, _ => by cases o <;> simp [Option.filter_some]
  | l :: ls, o, h => by
    rw [List.foldl_cons, foldl_apply_of_not_announced ls _ fun n hn => h n (by simp [hn])]
    cases l with
    | announced n =>
      have : n.ethAddr ≠ a := h n (by simp)
      cases o <;> simp [Label.apply, Label.keeps, this]
    | cleaned d c =>
      cases o with
      | none => rfl
      | some n => by_cases hs : survives d n <;> simp [Label.apply, Label.keeps, hs, Option.filter_some]
    | _ => cases o <;> rfl

theorem Locator.run_lookup_of_not_announcer {conf : LocatorConfig} {l : Locator} {evs : List Event}
    {a : Address} (h : ∀ e ∈ evs, e.announcer ≠ some a) :
    (l.run conf evs).1.db.lookup a =
      (l.db.lookup a).filter fun n => (l.run conf evs).2.all (Label.keeps n) := by
  refine (Locator.run_lookup conf l evs a).trans (foldl_apply_of_not_announced _ _ fun n hn hna => ?_)
  obtain ⟨e, he, hann⟩ := Locator.run_announced hn
  exact h e he (hna ▸ hann)

theorem all_keeps_iff {n : Node} {ls : List Label} :
    ls.all (Label.keeps n) = true ↔ ∀ d c, .cleaned d c ∈ ls → ¬ n.ts < d := by
  simp only [List.all_eq_true]
  constructor
  · intro h d c hc
    simpa [Label.keeps, survives] using h _ hc
  · intro h l hl
    cases l with
    | cleaned d c => simpa [Label.keeps, survives] using h d c hl
    | _ => rfl

/-- The janitor's scans as the spec gives them, from the calls of a run alone: its ticks
alternate between computing the deadline `now - NodeTTL` from the clock and scanning
with it.  For each call of `evs`, from the janitor in state `j`, the deadline that call
scans with, and `none` when it does not scan. -/
def scanDeadlines (conf : LocatorConfig) : Janitor → List Event → List (Option Time)
  | _, [] => []
  | j, e :: es =>
    match e.action, j with
    | .janitor, .waiting => none :: scanDeadlines conf (.cleaning (sweepDeadline conf e.now)) es
    | .janitor, .cleaning d => some d :: scanDeadlines conf .waiting es
    | _, j => none :: scanDeadlines conf j es

/-- A tick at 70 sets the deadline 10; the scan at the next tick uses it. -/
example : scanDeadlines ⟨10, 60⟩ .waiting [⟨70, .janitor⟩, ⟨75, .resolve 7⟩, ⟨80, .janitor⟩] =
    [none, none, some 10] := rfl

def Label.scanDeadline : Label → Option Time
  | .cleaned d _ => some d
  | _ => none

theorem mem_map_scanDeadline {ls : List Label} {d : Time} :
    some d ∈ ls.map Label.scanDeadline ↔ ∃ cc, .cleaned d cc ∈ ls := by
  constructor
  · intro h
    obtain ⟨l, hl, hd⟩ := List.mem_map.mp h
    cases l with
    | cleaned d' cc => cases hd; exact ⟨cc, hl⟩
    | _ => cases hd
  · rintro ⟨cc, hc⟩
    exact List.mem_map.mpr ⟨_, hc, rfl⟩

theorem Locator.run_length (conf : LocatorConfig) :
    ∀ (l : Locator) (evs : List Event), (l.run conf evs).2.length = evs.length
  | _, [] => rfl
  | _, _ :: es => congrArg Nat.succ (Locator.run_length conf _ es)

/-- The machine scans with exactly the deadlines `scanDeadlines` gives. -/
theorem Locator.run_scanDeadlines (conf : LocatorConfig) :
    ∀ (l : Locator) (evs : List Event),
      (l.run conf evs).2.map Label.scanDeadline = scanDeadlines conf l.janitor evs
  | _, [] => rfl
  | l, e :: es => by
    simp only [Locator.run, List.map_cons, Locator.run_scanDeadlines conf _ es]
    rcases e with ⟨now, action⟩
    cases action with
    | announce ctx req =>
      cases hx : extractEthAddr ctx <;>
        simp [Locator.step, Locator.announce, hx, scanDeadlines, Label.scanDeadline]
    | resolve ethAddr => rfl
    | janitor =>
      cases hj : l.janitor <;> simp [Locator.step, hj, scanDeadlines, Label.scanDeadline]

theorem Locator.init_run_lookup (conf : LocatorConfig) (evs : List Event) (a : Address) :
    ((Locator.init.run conf evs).1.db.lookup a) =
      (Locator.init.run conf evs).2.foldl (Label.apply a) none := by
  rw [Locator.run_lookup]
  rfl

/-- What `getResolve a` returns after any run was announced by a peer authenticated as
`a`: an announce of the run whose context carries `a`'s wallet, with those endpoints,
stamped with that announce's clock reading. -/
theorem getResolve_authenticated (conf : LocatorConfig) (evs : List Event) (a : Address)
    (n : Node) (h : getResolve (Locator.init.run conf evs).1.db a = .ok n) :
    n.ethAddr = a ∧ ∃ e ∈ evs, ∃ ctx req, e.action = .announce ctx req ∧
      extractEthAddr ctx = .ok a ∧ n = ⟨a, req.ipAddr, e.now⟩ := by
  rw [getResolve_eq_ok_iff, Locator.init_run_lookup] at h
  rcases foldl_apply_some _ none n h with h | ⟨hmem, ha⟩
  · cases h
  · subst ha
    exact ⟨rfl, Locator.run_announced_event hmem⟩

theorem getResolve_authenticated_announce :
    let evs : List Event := [⟨5, .announce (some ⟨.ethAuthInfo 7⟩) ⟨["10.0.0.1:15010"]⟩⟩]
    let n : Node := ⟨7, ["10.0.0.1:15010"], 5⟩
    getResolve (Locator.init.run ⟨10, 60⟩ evs).1.db 7 = .ok n ∧
    (n.ethAddr = 7 ∧ ∃ e ∈ evs, ∃ ctx req, e.action = .announce ctx req ∧
      extractEthAddr ctx = .ok 7 ∧ n = ⟨7, req.ipAddr, e.now⟩) :=
  ⟨rfl, getResolve_authenticated ⟨10, 60⟩ _ 7 _ rfl⟩

/-! ## The janitor's window -/

theorem Locator.step_of_ne_janitor {conf : LocatorConfig} {l : Locator} {e : Event}
    (h : e.action ≠ .janitor) :
    (l.step conf e).1.janitor = l.janitor ∧ ∀ d cc, (l.step conf e).2 ≠ .cleaned d cc := by
  rcases Locator.step_cases conf l e with
    ⟨_, h'⟩ | ⟨_, h', _⟩ | ⟨_, _, h'⟩ | ⟨_, ha, _⟩ | ⟨_, _, ha, _⟩
  all_goals first | exact absurd ha h | rw [h']; simp

theorem Locator.run_of_ne_janitor {conf : LocatorConfig} :
    ∀ {l : Locator} {evs : List Event}, (∀ e ∈ evs, e.action ≠ .janitor) →
      (l.run conf evs).1.janitor = l.janitor ∧ ∀ d cc, .cleaned d cc ∉ (l.run conf evs).2
  | l, [], _ => ⟨rfl, by simp [Locator.run]⟩
  | l, e :: es, h => by
    obtain ⟨hj, hc⟩ := @Locator.step_of_ne_janitor conf l e (h e (by simp))
    obtain ⟨hj', hc'⟩ := @Locator.run_of_ne_janitor conf (l.step conf e).1 es
      fun e' he' => h e' (List.mem_cons_of_mem _ he')
    refine ⟨hj'.trans hj, fun d cc hmem => ?_⟩
    simp only [Locator.run, List.mem_cons] at hmem
    exact hmem.elim (fun h => hc d cc h.symm) (hc' d cc)

theorem Locator.step_congr {conf : LocatorConfig} {l l' : Locator} {e : Event}
    (h : e.action ≠ .janitor ∨ l.janitor = l'.janitor) :
    (∀ a o, (l.step conf e).2.apply a o = (l'.step conf e).2.apply a o) ∧
      (l.janitor = l'.janitor → (l.step conf e).1.janitor = (l'.step conf e).1.janitor) := by
  rcases e with ⟨now, action⟩
  cases action with
  | announce ctx req => cases hx : extractEthAddr ctx <;> simp [Locator.step, Locator.announce, hx]
  | resolve ethAddr => exact ⟨fun _ _ => rfl, id⟩
  | janitor =>
    have hj : l.janitor = l'.janitor := h.resolve_left (by simp)
    simp only [Locator.step, ← hj]
    cases l.janitor <;> exact ⟨fun _ _ => rfl, fun _ => rfl⟩

theorem Locator.run_apply_congr {conf : LocatorConfig} :
    ∀ {evs : List Event}, (∀ e ∈ evs, e.action ≠ .janitor) →
      ∀ (l l' : Locator) (a : Address) (o : Option Node),
        (l.run conf evs).2.foldl (Label.apply a) o = (l'.run conf evs).2.foldl (Label.apply a) o
  | [], _, _, _, _, _ => rfl
  | e :: es, h, l, l', a, o => by
    simp only [Locator.run, List.foldl_cons]
    rw [(@Locator.step_congr conf l l' e (.inl (h e (List.mem_cons_self _ _)))).1 a o]
    exact Locator.run_apply_congr (fun e' he' => h e' (List.mem_cons_of_mem _ he')) _ _ a _

/-- Two states with the same janitor and the same records stay so along any run. -/
theorem Locator.run_congr {conf : LocatorConfig} :
    ∀ {l l' : Locator} (evs : List Event), l.janitor = l'.janitor →
      (∀ a, l.db.lookup a = l'.db.lookup a) →
      (l.run conf evs).1.janitor = (l'.run conf evs).1.janitor ∧
        ∀ a, (l.run conf evs).1.db.lookup a = (l'.run conf evs).1.db.lookup a
  | l, l', [], hj, hdb => ⟨hj, hdb⟩
  | l, l', e :: es, hj, hdb => by
    have hstep := @Locator.step_congr conf l l' e (.inr hj)
    refine @Locator.run_congr conf (l.step conf e).1 (l'.step conf e).1 es (hstep.2 hj) fun a => ?_
    rw [Locator.step_lookup, Locator.step_lookup, hdb, hstep.1]

/-- Labels of the other calls, in which every announce has a stamp no older than the
deadline, commute with a sweep at that deadline. -/
theorem foldl_apply_filter {a : Address} {d : Time} :
    ∀ (ls : List Label) (o : Option Node), (∀ n, .announced n ∈ ls → survives d n = true) →
      (∀ d' cc, .cleaned d' cc ∉ ls) →
      ls.foldl (Label.apply a) (o.filter (survives d)) =
        (ls.foldl (Label.apply a) o).filter (survives d)
  | [], _, _, _ => rfl
  | l :: ls, o, hann, hcl => by
    rw [List.foldl_cons, List.foldl_cons, ← foldl_apply_filter ls _
      (fun n hn => hann n (List.mem_cons_of_mem _ hn))
      (fun d' cc hc => hcl d' cc (List.mem_cons_of_mem _ hc))]
    congr 1
    cases l with
    | announced n =>
      have hn := hann n (List.mem_cons_self _ _)
      simp only [Label.apply]
      split_ifs <;> simp [Option.filter_some, hn]
    | cleaned d' cc => exact absurd (List.mem_cons_self _ _) (hcl d' cc)
    | _ => rfl

theorem survives_sweepDeadline {conf : LocatorConfig} (hTTL : 0 ≤ conf.nodeTTL) {now : Time}
    {n : Node} (h : now ≤ n.ts) : survives (sweepDeadline conf now) n = true := by
  have key : ∀ ts now ttl : Int, 0 ≤ ttl → now ≤ ts → ¬ ts < now + -1 * ttl := by
    intros; omega
  simpa [survives, sweepDeadline] using key n.ts now conf.nodeTTL hTTL h

/-- `traverseAndClean` computes its deadline from the clock before it takes the lock, so
peers' calls can fall between the two.  With a clock that does not go back over that
window and a `NodeTTL` that is not negative, the window changes nothing a later call can
see: a run ends as it would with those calls moved after the scan, as if the janitor had
read the clock and scanned in one locked step. -/
theorem janitor_window_atomic (conf : LocatorConfig) (hTTL : 0 ≤ conf.nodeTTL) (l : Locator)
    (hl : l.janitor = .waiting) (now now' : Time) (mid post : List Event)
    (hmid : ∀ e ∈ mid, e.action ≠ .janitor ∧ now ≤ e.now) :
    let window := l.run conf (⟨now, .janitor⟩ :: mid ++ ⟨now', .janitor⟩ :: post)
    let atomic := l.run conf (⟨now, .janitor⟩ :: ⟨now', .janitor⟩ :: mid ++ post)
    window.1.janitor = atomic.1.janitor ∧ ∀ a, window.1.db.lookup a = atomic.1.db.lookup a := by
  intro window atomic
  have hne : ∀ e ∈ mid, e.action ≠ .janitor := fun e he => (hmid e he).1
  let d := sweepDeadline conf now
  let l1 : Locator := { l with janitor := .cleaning d }
  let scan : Event := ⟨now', .janitor⟩
  let A := (l1.run conf mid).1
  let B := (l1.step conf scan).1
  have hw : window.1 = ((A.step conf scan).1.run conf post).1 := by
    show (Locator.run conf (l.step conf _).1 (mid ++ scan :: post)).1 = _
    simp only [Locator.step, hl, Locator.run_append]
    rfl
  have ha : atomic.1 = ((B.run conf mid).1.run conf post).1 := by
    show (Locator.run conf (l.step conf _).1 (scan :: (mid ++ post))).1 = _
    simp only [Locator.step, hl]
    show (Locator.run conf B (mid ++ post)).1 = _
    rw [Locator.run_append]
  obtain ⟨hjA, hcA⟩ := @Locator.run_of_ne_janitor conf l1 mid hne
  have hjA : A.janitor = .cleaning d := hjA
  have hsurv : ∀ n, .announced n ∈ (l1.run conf mid).2 → survives d n = true := by
    intro n hn
    obtain ⟨e, he, _, _, _, _, hnode⟩ := Locator.run_announced_event hn
    have hts : n.ts = e.now := congrArg Node.ts hnode
    exact survives_sweepDeadline hTTL (hts ▸ (hmid e he).2)
  rw [hw, ha]
  refine Locator.run_congr post ?_ fun a => ?_
  · rw [(@Locator.run_of_ne_janitor conf B mid hne).1]
    simp only [Locator.step, hjA]
    rfl
  · calc (A.step conf scan).1.db.lookup a = (A.db.lookup a).filter (survives d) := by
          rw [Locator.step_lookup]
          simp only [Locator.step, hjA, Label.apply]
      _ = ((l1.run conf mid).2.foldl (Label.apply a) (l1.db.lookup a)).filter (survives d) := by
          rw [Locator.run_lookup]
      _ = (l1.run conf mid).2.foldl (Label.apply a) ((l1.db.lookup a).filter (survives d)) :=
          (foldl_apply_filter _ _ hsurv hcA).symm
      _ = (B.run conf mid).2.foldl (Label.apply a) (B.db.lookup a) := by
          rw [Locator.run_apply_congr hne l1 B, Locator.step_lookup]
          rfl
      _ = (B.run conf mid).1.db.lookup a := (Locator.run_lookup conf B mid a).symm

theorem janitor_window_atomic_announce :
    let conf : LocatorConfig := ⟨10, 60⟩
    let l := (Locator.init.run conf [⟨0, .announce (some ⟨.ethAuthInfo 7⟩) ⟨["10.0.0.1:15010"]⟩⟩]).1
    let mid : List Event := [⟨75, .announce (some ⟨.ethAuthInfo 8⟩) ⟨["10.0.0.2:15010"]⟩⟩]
    let post : List Event := [⟨90, .resolve 8⟩]
    (0 ≤ conf.nodeTTL ∧ l.janitor = .waiting ∧ ∀ e ∈ mid, e.action ≠ .janitor ∧ 70 ≤ e.now) ∧
    (let window := l.run conf (⟨70, .janitor⟩ :: mid ++ ⟨80, .janitor⟩ :: post)
     let atomic := l.run conf (⟨70, .janitor⟩ :: ⟨80, .janitor⟩ :: mid ++ post)
     window.1.janitor = atomic.1.janitor ∧ ∀ a, window.1.db.lookup a = atomic.1.db.lookup a) :=
  have hmid : ∀ e ∈ [(⟨75, .announce (some ⟨.ethAuthInfo 8⟩) ⟨["10.0.0.2:15010"]⟩⟩ : Event)],
      e.action ≠ .janitor ∧ 70 ≤ e.now := by simp
  ⟨⟨by decide, rfl, hmid⟩, janitor_window_atomic ⟨10, 60⟩ (by decide) _ rfl 70 80 _ _ hmid⟩

end SonmCore.Directory
