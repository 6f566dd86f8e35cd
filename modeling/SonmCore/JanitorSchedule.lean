import SonmCore.DirectoryRun
import Mathlib.Tactic.Linarith
import Mathlib.Tactic.Ring

/-!
# The janitor's schedule and how long a record lives

`cleanExpiredNodes` runs `traverseAndClean` on every tick of a ticker started when
the locator is built.  Assume, as the spec's timing example does, that the janitor
computes its `k`-th deadline exactly at the `k`-th tick `c + k * CleanupPeriod`, that
the clock never goes back, and that `NodeTTL` is not negative.  Then a record stays
resolvable for `NodeTTL` after its announce, and is gone once the sweeps due within
one more period have run: `getResolve_ttl_window`.

A `Watch` is the run as an observer with a clock sees it.  `Watch.Inv` is kept by
every step that respects the timing, and its field `swept` carries the argument: a
record outlives a finished scan whose tick came after its stamp only if the scan's
deadline did not pass the stamp.
-/

namespace SonmCore.Directory

structure Watch where
  loc : Locator
  clock : Time
  ticks : Nat
  scans : Nat

/-- The locator built at time `c`. -/
def Watch.init (c : Time) : Watch := ⟨Locator.init, c, 0, 0⟩

def Label.ticks : Label → Nat
  | .deadlineSet _ => 1
  | _ => 0

def Label.scans : Label → Nat
  | .cleaned _ _ => 1
  | _ => 0

def Watch.step (conf : LocatorConfig) (w : Watch) (e : Event) : Watch :=
  let r := w.loc.step conf e
  ⟨r.1, e.now, w.ticks + r.2.ticks, w.scans + r.2.scans⟩

def Watch.run (conf : LocatorConfig) (w : Watch) (evs : List Event) : Watch :=
  evs.foldl (Watch.step conf) w

/-- The timing assumed of one step: the clock does not go back, and the janitor
computes its `k`-th deadline at the `k`-th tick. -/
def Watch.Timely (conf : LocatorConfig) (c : Time) (w : Watch) (e : Event) : Prop :=
  w.clock ≤ e.now ∧ (e.action = .janitor → w.loc.janitor = .waiting →
    e.now = c + (w.ticks + 1 : Nat) * conf.cleanupPeriod)

def Watch.TimelyRun (conf : LocatorConfig) (c : Time) : Watch → List Event → Prop
  | _, [] => True
  | w, e :: es => w.Timely conf c e ∧ Watch.TimelyRun conf c (w.step conf e) es

instance (conf : LocatorConfig) (c : Time) (w : Watch) (e : Event) :
    Decidable (w.Timely conf c e) :=
  inferInstanceAs (Decidable (_ ∧ _))

instance Watch.decTimelyRun (conf : LocatorConfig) (c : Time) :
    (w : Watch) → (evs : List Event) → Decidable (Watch.TimelyRun conf c w evs)
  | _, [] => isTrue trivial
  | w, e :: es =>
    have := Watch.decTimelyRun conf c (w.step conf e) es
    inferInstanceAs (Decidable (_ ∧ _))

structure Watch.Inv (conf : LocatorConfig) (c : Time) (w : Watch) : Prop where
  ticked : c + w.ticks * conf.cleanupPeriod ≤ w.clock
  waiting : w.loc.janitor = .waiting → w.scans = w.ticks
  cleaning : ∀ d, w.loc.janitor = .cleaning d →
    w.ticks = w.scans + 1 ∧ d = c + w.ticks * conf.cleanupPeriod - conf.nodeTTL
  swept : ∀ a n, w.loc.db.lookup a = some n → ∀ k : Nat, 1 ≤ k → k ≤ w.scans →
    n.ts < c + k * conf.cleanupPeriod → c + k * conf.cleanupPeriod - conf.nodeTTL ≤ n.ts

theorem Watch.init_inv (conf : LocatorConfig) (c : Time) : (Watch.init c).Inv conf c where
  ticked := by simp [Watch.init]
  waiting := fun _ => rfl
  cleaning := fun d h => by simp [Watch.init, Locator.init] at h
  swept := fun a n h => by simp [Watch.init, Locator.init] at h

namespace Watch.Inv

variable {conf : LocatorConfig} {c : Time} {w : Watch}

theorem scans_le_ticks (hinv : w.Inv conf c) : w.scans ≤ w.ticks := by
  cases hj : w.loc.janitor with
  | waiting => exact (hinv.waiting hj).le
  | cleaning d => have := (hinv.cleaning d hj).1; omega

theorem with_clock (hinv : w.Inv conf c) {t : Time} (ht : w.clock ≤ t) :
    ({ w with clock := t } : Watch).Inv conf c :=
  ⟨hinv.ticked.trans ht, hinv.waiting, hinv.cleaning, hinv.swept⟩

/-- A step that respects the timing keeps the invariant. -/
theorem step (hP : 0 ≤ conf.cleanupPeriod) (hinv : w.Inv conf c) {e : Event}
    (ht : w.Timely conf c e) : (w.step conf e).Inv conf c := by
  obtain ⟨hclock, htick⟩ := ht
  rcases Locator.step_cases conf w.loc e with
    ⟨err, h⟩ | ⟨n, h, hts⟩ | ⟨a, r, h⟩ | ⟨hj, ha, h⟩ | ⟨d, hj, ha, cc, h⟩
  · simpa [Watch.step, h, Label.ticks, Label.scans] using hinv.with_clock hclock
  · simp only [Watch.step, h, Label.ticks, Label.scans, add_zero]
    refine ⟨hinv.ticked.trans hclock, hinv.waiting, hinv.cleaning, fun a m hm k hk1 hk hlt => ?_⟩
    rw [lookup_insert_ite] at hm
    split_ifs at hm with ha
    · cases hm
      have hkt : (k : Int) * conf.cleanupPeriod ≤ w.ticks * conf.cleanupPeriod :=
        mul_le_mul_of_nonneg_right (by exact_mod_cast hk.trans hinv.scans_le_ticks) hP
      exact absurd hlt (not_lt.mpr (by linarith [hinv.ticked]))
    · exact hinv.swept a m hm k hk1 hk hlt
  · simpa [Watch.step, h, Label.ticks, Label.scans] using hinv.with_clock hclock
  · have hnow := htick ha hj
    have hscan := hinv.waiting hj
    simp only [Watch.step, h, Label.ticks, Label.scans, add_zero]
    refine ⟨?_, ?_, ?_, ?_⟩ <;> dsimp only
    · exact hnow.ge
    · simp
    · intro d hd
      simp only [Janitor.cleaning.injEq] at hd
      subst hd
      simp only [sweepDeadline, hnow]
      exact ⟨by omega, by linarith⟩
    · exact hinv.swept
  · obtain ⟨hticks, hd⟩ := hinv.cleaning d hj
    simp only [Watch.step, h, Label.ticks, Label.scans, add_zero]
    refine ⟨?_, ?_, ?_, ?_⟩ <;> dsimp only
    · exact hinv.ticked.trans hclock
    · intro; omega
    · simp
    · intro a m hm k hk1 hk hlt
      rw [traverseAndClean_lookup (List.Perm.refl _), Option.filter_eq_some] at hm
      obtain ⟨hm, hsurv⟩ := hm
      rcases Nat.lt_or_ge k (w.scans + 1) with hk' | hk'
      · exact hinv.swept a m hm k hk1 (by omega) hlt
      · have hk'' : k = w.ticks := by omega
        subst hk''
        simp only [survives, Bool.not_eq_true', decide_eq_false_iff_not, not_lt] at hsurv
        linarith

end Watch.Inv

theorem Watch.Inv.run {conf : LocatorConfig} {c : Time} (hP : 0 ≤ conf.cleanupPeriod) :
    ∀ {w : Watch} {evs : List Event}, w.Inv conf c → w.TimelyRun conf c evs →
      (w.run conf evs).Inv conf c
  | _, [], hinv, _ => hinv
  | _, _ :: _, hinv, ⟨ht, hts⟩ =>
    have h := Watch.Inv.run hP (hinv.step hP ht) hts
    h

theorem Watch.timelyRun_append {conf : LocatorConfig} {c : Time} :
    ∀ {w : Watch} {evs evs' : List Event},
      w.TimelyRun conf c (evs ++ evs') ↔
        w.TimelyRun conf c evs ∧ (w.run conf evs).TimelyRun conf c evs'
  | _, [], _ => by simp [Watch.TimelyRun, Watch.run]
  | w, e :: es, evs' => by
    show (w.Timely conf c e ∧ (w.step conf e).TimelyRun conf c (es ++ evs')) ↔ _
    rw [Watch.timelyRun_append]
    exact and_assoc.symm

theorem Watch.run_append (conf : LocatorConfig) (w : Watch) (evs evs' : List Event) :
    w.run conf (evs ++ evs') = (w.run conf evs).run conf evs' :=
  List.foldl_append _ _ _ _

theorem Watch.run_loc (conf : LocatorConfig) :
    ∀ (w : Watch) (evs : List Event), (w.run conf evs).loc = (w.loc.run conf evs).1
  | _, [] => rfl
  | w, e :: es => Watch.run_loc conf (w.step conf e) es

theorem Watch.clock_le_run {conf : LocatorConfig} {c : Time} :
    ∀ {w : Watch} {evs : List Event}, w.TimelyRun conf c evs → w.clock ≤ (w.run conf evs).clock
  | _, [], _ => le_rfl
  | _, _ :: _, ⟨ht, hts⟩ => ht.1.trans (Watch.clock_le_run hts)

theorem Watch.cleaned_le_clock {conf : LocatorConfig} {c : Time}
    (hP : 0 ≤ conf.cleanupPeriod) :
    ∀ {w : Watch} {evs : List Event}, w.Inv conf c → w.TimelyRun conf c evs →
      ∀ d cc, .cleaned d cc ∈ (w.loc.run conf evs).2 →
        d + conf.nodeTTL ≤ (w.run conf evs).clock
  | _, [], _, _, _, _, h => by simp [Locator.run] at h
  | w, e :: es, hinv, ⟨ht, hts⟩, d, cc, h => by
    simp only [Locator.run, List.mem_cons] at h
    rcases h with h | h
    · have hd := (hinv.cleaning d (Locator.step_cleaned h.symm)).2
      have := hinv.ticked
      have := ht.1.trans (Watch.clock_le_run (w := w.step conf e) hts)
      show d + conf.nodeTTL ≤ ((w.step conf e).run conf es).clock
      linarith
    · exact Watch.cleaned_le_clock hP (hinv.step hP ht) hts d cc h

theorem exists_tick_after {c t0 ttl P : Int} (hP : 0 < P) (hc : c ≤ t0) (httl : 0 ≤ ttl) :
    ∃ k : Nat, 1 ≤ k ∧ t0 + ttl < c + k * P ∧ c + k * P ≤ t0 + ttl + P := by
  have hq : 0 ≤ (t0 + ttl - c) / P := Int.ediv_nonneg (by omega) hP.le
  have hdiv := Int.ediv_add_emod (t0 + ttl - c) P
  have hr0 := Int.emod_nonneg (t0 + ttl - c) hP.ne'
  have hrP := Int.emod_lt_of_pos (t0 + ttl - c) hP
  refine ⟨((t0 + ttl - c) / P).toNat + 1, by omega, ?_⟩
  have hk : (((t0 + ttl - c) / P).toNat + 1 : Nat) * P = P * ((t0 + ttl - c) / P) + P := by
    push_cast
    rw [Int.toNat_of_nonneg hq]
    ring
  rw [hk]
  constructor <;> linarith

/-- Under the janitor's schedule, a record announced at `t0` (and not announced again)
resolves until `t0 + NodeTTL`, and is gone from `t0 + NodeTTL + CleanupPeriod` on, once
the sweeps due by then have run. -/
theorem getResolve_ttl_window (conf : LocatorConfig) (c : Time)
    (hP : 0 < conf.cleanupPeriod) (hTTL : 0 ≤ conf.nodeTTL)
    (pre post : List Event) (ctx : Context) (req : AnnounceRequest) (t0 : Time) (a : Address)
    (hA : extractEthAddr ctx = .ok a) (hlast : ∀ e ∈ post, e.announcer ≠ some a)
    (htimely : (Watch.init c).TimelyRun conf c (pre ++ ⟨t0, .announce ctx req⟩ :: post))
    (t : Time)
    (ht : ((Watch.init c).run conf (pre ++ ⟨t0, .announce ctx req⟩ :: post)).clock ≤ t) :
    let w := (Watch.init c).run conf (pre ++ ⟨t0, .announce ctx req⟩ :: post)
    (t ≤ t0 + conf.nodeTTL → getResolve w.loc.db a = .ok ⟨a, req.ipAddr, t0⟩) ∧
    (t0 + conf.nodeTTL + conf.cleanupPeriod ≤ t →
      (∀ k : Nat, 1 ≤ k → c + k * conf.cleanupPeriod ≤ t → k ≤ w.scans) →
      getResolve w.loc.db a = .error errNodeNotFound) := by
  intro w
  set e0 : Event := ⟨t0, .announce ctx req⟩
  set w1 := (Watch.init c).run conf pre
  set w2 := w1.step conf e0
  set n0 : Node := ⟨a, req.ipAddr, t0⟩
  obtain ⟨hpre, he0, hpost⟩ : (Watch.init c).TimelyRun conf c pre ∧ w1.Timely conf c e0 ∧
      w2.TimelyRun conf c post := by
    simpa [Watch.timelyRun_append, Watch.TimelyRun] using htimely
  have hw : w = w2.run conf post := by
    show (Watch.init c).run conf (pre ++ e0 :: post) = _
    rw [Watch.run_append]
    rfl
  have hinv2 := ((Watch.init_inv conf c).run hP.le hpre).step hP.le he0
  have hc : c ≤ t0 := (Watch.clock_le_run hpre).trans he0.1
  have hlook2 : w2.loc.db.lookup a = some n0 := by
    simp [w2, e0, Watch.step, Locator.step, Locator.announce, hA, lookup_putAnnounce, n0]
  have hlook : w.loc.db.lookup a =
      (some n0).filter (fun n => (w2.loc.run conf post).2.all (Label.keeps n)) := by
    rw [hw, Watch.run_loc, Locator.run_lookup_of_not_announcer hlast, hlook2]
  refine ⟨fun hle => ?_, fun hge hdue => ?_⟩
  · have hall : (w2.loc.run conf post).2.all (Label.keeps n0) := by
      refine all_keeps_iff.mpr fun d cc hd hlt => ?_
      have := Watch.cleaned_le_clock hP.le hinv2 hpost d cc hd
      rw [← hw] at this
      change t0 < d at hlt
      linarith
    rw [getResolve_eq_ok_iff, hlook, Option.filter_some, if_pos hall]
  · refine getResolve_eq_error_iff.mpr ⟨?_, rfl⟩
    cases hl : w.loc.db.lookup a with
    | none => rfl
    | some n =>
      have hn : n = n0 := by
        rw [hlook, Option.filter_eq_some] at hl
        exact (Option.mem_some_iff.mp hl.1).symm
      subst hn
      obtain ⟨k, hk1, hafter, hbefore⟩ := exists_tick_after hP hc hTTL
      have hinv : w.Inv conf c := by rw [hw]; exact hinv2.run hP.le hpost
      have := hinv.swept a n0 hl k hk1 (hdue k hk1 (by linarith)) (by show t0 < _; linarith)
      change _ ≤ t0 at this
      linarith

/-- The janitor's ticks at the times `ts`: each computes a deadline, then scans with it. -/
def janitorTicks (ts : List Time) : List Event :=
  ts.flatMap fun t => [⟨t, .janitor⟩, ⟨t, .janitor⟩]

/-- The spec's example, `NodeTTL` 60 and `CleanupPeriod` 10, on both edges of the window:
a record announced at 0 is gone at 70 once the sweeps due by then have run, and one
announced again at 50 still resolves at 100. -/
theorem getResolve_ttl_window_spec_example :
    let conf : LocatorConfig := ⟨10, 60⟩
    let ctx : Context := some ⟨.ethAuthInfo 7⟩
    let req : AnnounceRequest := ⟨["10.0.0.1:15010"]⟩
    let post1 := janitorTicks [10, 20, 30, 40, 50, 60, 70]
    let evs1 := [] ++ ⟨0, .announce ctx req⟩ :: post1
    let pre2 := ⟨0, .announce ctx req⟩ :: janitorTicks [10, 20, 30, 40, 50]
    let post2 := janitorTicks [60, 70, 80, 90, 100]
    let evs2 := pre2 ++ ⟨50, .announce ctx req⟩ :: post2
    let w1 := (Watch.init 0).run conf evs1
    let w2 := (Watch.init 0).run conf evs2
    (0 < conf.cleanupPeriod ∧ 0 ≤ conf.nodeTTL ∧ extractEthAddr ctx = .ok 7) ∧
    (((∀ e ∈ post1, e.announcer ≠ some 7) ∧ (Watch.init 0).TimelyRun conf 0 evs1 ∧
        w1.clock ≤ 70 ∧ 0 + conf.nodeTTL + conf.cleanupPeriod ≤ 70 ∧
        ∀ k : Nat, 1 ≤ k → 0 + k * conf.cleanupPeriod ≤ 70 → k ≤ w1.scans) ∧
      getResolve w1.loc.db 7 = .error errNodeNotFound) ∧
    (((∀ e ∈ post2, e.announcer ≠ some 7) ∧ (Watch.init 0).TimelyRun conf 0 evs2 ∧
        w2.clock ≤ 100 ∧ 100 ≤ 50 + conf.nodeTTL) ∧
      getResolve w2.loc.db 7 = .ok ⟨7, req.ipAddr, 50⟩) :=
  have hdue : ∀ k : Nat, 1 ≤ k → (0 : Time) + k * (⟨10, 60⟩ : LocatorConfig).cleanupPeriod ≤ 70 →
      k ≤ ((Watch.init 0).run ⟨10, 60⟩ ([] ++ ⟨0, .announce (some ⟨.ethAuthInfo 7⟩)
        ⟨["10.0.0.1:15010"]⟩⟩ :: janitorTicks [10, 20, 30, 40, 50, 60, 70])).scans := by
    intro k _ hk
    change (0 : Int) + k * 10 ≤ 70 at hk
    change k ≤ 7
    omega
  ⟨⟨by decide, by decide, rfl⟩,
    ⟨⟨by decide, by decide, by decide, by decide, hdue⟩,
      (getResolve_ttl_window ⟨10, 60⟩ 0 (by decide) (by decide) [] _ (some ⟨.ethAuthInfo 7⟩)
        ⟨["10.0.0.1:15010"]⟩ 0 7 rfl (by decide) (by decide) 70 (by decide)).2
        (by decide) hdue⟩,
    ⟨⟨by decide, by decide, by decide, by decide⟩,
      (getResolve_ttl_window ⟨10, 60⟩ 0 (by decide) (by decide) _ _ (some ⟨.ethAuthInfo 7⟩)
        ⟨["10.0.0.1:15010"]⟩ 50 7 rfl (by decide) (by decide) 100 (by decide)).1
        (by decide)⟩⟩

/-! ## Every record is fresh -/

theorem Watch.now_mem_run {conf : LocatorConfig} {c : Time} :
    ∀ {w : Watch} {evs : List Event}, w.TimelyRun conf c evs →
      ∀ e ∈ evs, w.clock ≤ e.now ∧ e.now ≤ (w.run conf evs).clock
  | _, [], _, _, he => absurd he (List.not_mem_nil _)
  | w, e' :: es, ⟨ht, hts⟩, e, he => by
    rcases List.mem_cons.mp he with rfl | he
    · exact ⟨ht.1, Watch.clock_le_run hts⟩
    · obtain ⟨h1, h2⟩ := Watch.now_mem_run hts e he
      exact ⟨ht.1.trans h1, h2⟩

theorem exists_tick_before {c t P : Int} (hP : 0 < P) (ht : c + P ≤ t) :
    ∃ k : Nat, 1 ≤ k ∧ c + k * P ≤ t ∧ t < c + k * P + P := by
  have hq : 1 ≤ (t - c) / P := (Int.le_ediv_iff_mul_le hP).mpr (by omega)
  have hdiv := Int.ediv_add_emod (t - c) P
  have hr0 := Int.emod_nonneg (t - c) hP.ne'
  have hrP := Int.emod_lt_of_pos (t - c) hP
  refine ⟨((t - c) / P).toNat, by omega, ?_⟩
  have hk : (((t - c) / P).toNat : Nat) * P = P * ((t - c) / P) := by
    rw [Int.toNat_of_nonneg (by omega), mul_comm]
  rw [hk]
  constructor <;> linarith

/-- In every state of a run whose ticks keep to the janitor's schedule, once the sweeps
due by time `t` have run, every record the directory resolves was stamped after
`t - NodeTTL - CleanupPeriod`, and not after the last clock reading. -/
theorem getResolve_fresh (conf : LocatorConfig) (c : Time) (hP : 0 < conf.cleanupPeriod)
    (hTTL : 0 ≤ conf.nodeTTL) (evs : List Event) (htimely : (Watch.init c).TimelyRun conf c evs)
    (t : Time)
    (hdue : ∀ k : Nat, 1 ≤ k → c + k * conf.cleanupPeriod ≤ t →
      k ≤ ((Watch.init c).run conf evs).scans)
    (a : Address) (n : Node) (h : getResolve ((Watch.init c).run conf evs).loc.db a = .ok n) :
    t - conf.nodeTTL - conf.cleanupPeriod < n.ts ∧ n.ts ≤ ((Watch.init c).run conf evs).clock := by
  have hinv := (Watch.init_inv conf c).run hP.le htimely
  have hlook := getResolve_eq_ok_iff.mp h
  have hstamp : c ≤ n.ts ∧ n.ts ≤ ((Watch.init c).run conf evs).clock := by
    rw [Watch.run_loc, show (Watch.init c).loc = Locator.init from rfl,
      Locator.init_run_lookup] at hlook
    rcases foldl_apply_some _ none n hlook with h0 | ⟨hmem, -⟩
    · cases h0
    · obtain ⟨e, he, _, _, _, _, hn⟩ := Locator.run_announced_event hmem
      rw [hn]
      exact Watch.now_mem_run htimely e he
  refine ⟨?_, hstamp.2⟩
  by_cases hdue1 : c + conf.cleanupPeriod ≤ t
  · obtain ⟨k, hk1, hkt, htk⟩ := exists_tick_before hP hdue1
    by_cases hlt : n.ts < c + k * conf.cleanupPeriod
    · have := hinv.swept a n hlook k hk1 (hdue k hk1 hkt) hlt
      linarith
    · linarith
  · linarith [hstamp.1]

/-- A record announced at 0 and resolved at 20, after the sweeps at 10 and 20. -/
theorem getResolve_fresh_announce :
    let conf : LocatorConfig := ⟨10, 60⟩
    let evs : List Event := [⟨0, .announce (some ⟨.ethAuthInfo 7⟩) ⟨["10.0.0.1:15010"]⟩⟩,
      ⟨10, .janitor⟩, ⟨10, .janitor⟩, ⟨20, .janitor⟩, ⟨20, .janitor⟩]
    let w := (Watch.init 0).run conf evs
    let n : Node := ⟨7, ["10.0.0.1:15010"], 0⟩
    (0 < conf.cleanupPeriod ∧ 0 ≤ conf.nodeTTL ∧ (Watch.init 0).TimelyRun conf 0 evs ∧
      (∀ k : Nat, 1 ≤ k → 0 + k * conf.cleanupPeriod ≤ 20 → k ≤ w.scans) ∧
      getResolve w.loc.db 7 = .ok n) ∧
    (20 - conf.nodeTTL - conf.cleanupPeriod < n.ts ∧ n.ts ≤ w.clock) :=
  have hdue : ∀ k : Nat, 1 ≤ k → (0 : Time) + k * (⟨10, 60⟩ : LocatorConfig).cleanupPeriod ≤ 20 →
      k ≤ ((Watch.init 0).run ⟨10, 60⟩
        [⟨0, .announce (some ⟨.ethAuthInfo 7⟩) ⟨["10.0.0.1:15010"]⟩⟩, ⟨10, .janitor⟩,
          ⟨10, .janitor⟩, ⟨20, .janitor⟩, ⟨20, .janitor⟩]).scans := by
    intro k _ hk
    change (0 : Int) + k * 10 ≤ 20 at hk
    change k ≤ 2
    omega
  ⟨⟨by decide, by decide, by decide, hdue, rfl⟩,
    getResolve_fresh ⟨10, 60⟩ 0 (by decide) (by decide) _ (by decide) 20 hdue 7 _ rfl⟩

end SonmCore.Directory
