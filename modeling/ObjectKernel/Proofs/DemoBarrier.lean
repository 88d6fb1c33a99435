import ObjectKernel.Proofs.DemoOutcome
import ObjectKernel.Proofs.ReportFiles

/-!
# The demonstration at the shutdown barrier

The main program passes the shutdown barrier as its last step, after everything that can fail. So what a run leaves
behind depends on whether there is room for all pieces. If there is, then every run passes the barrier once: its
threads have terminated, and the report is where the settings want it. If there is none then a run that has started
its threads leaves before the barrier, with an error, and nothing is counted or written. The shared runtime is
discarded in both cases.

## Contents

* `Scheduler.run_trace`: the scheduler makes one of the runs of a machine.
* `Demo.launch`: what is settled before anything runs. `Demo.run_of_launch`: the rest of the program.
* `Demo.Closed`: what the barrier leaves behind. `Demo.barrier_passed_iff_room`: when it is passed.
-/

namespace ObjectKernel

namespace Scheduler

open Machine

variable {s s' : Scheduler}

theorem pass_machine (h : s.pass = some s') : s'.machine = s.machine := by
  unfold pass at h
  split at h
  all_goals
    cases h
    try rfl

theorem getD_pass_machine (s : Scheduler) : (s.pass.getD s).machine = s.machine := by
  cases h : s.pass with
  | none => rfl
  | some s' => exact pass_machine h

theorem settle_machine (s : Scheduler) (e : Event) : (s.settle e).machine = s.machine := by
  unfold settle
  cases e with
  | other | spawned => rfl
  | paused | openedGate =>
    dsimp only
    split
    · rfl
    · exact getD_pass_machine _

theorem park_machine (s : Scheduler) : s.park.machine = s.machine := by
  unfold park
  split <;> rfl

/-- The scheduler lets one task take a turn, or passes control on. -/
theorem advance_trace (h : s.advance = some s') : ∃ τs, Trace (fun _ _ => True) s.machine τs s'.machine := by
  unfold advance at h
  split at h
  · cases h
  split at h
  next m hstep =>
    cases h
    rw [settle_machine]
    exact ⟨[.step s.current], .cons trivial hstep (.refl _)⟩
  split at h
  next m hexpire =>
    cases h
    exact ⟨[.expire s.current], .cons trivial hexpire (.refl _)⟩
  split at h
  · rw [pass_machine h]
    exact ⟨[], .refl _⟩
  · rw [pass_machine h, park_machine]
    exact ⟨[], .refl _⟩

/-- **The scheduler makes one of the runs of its machine.** -/
theorem run_trace (fuel : Nat) (s : Scheduler) : ∃ τs, Trace (fun _ _ => True) s.machine τs (run fuel s).machine := by
  induction fuel generalizing s with
  | zero => exact ⟨[], .refl _⟩
  | succ fuel ih =>
    unfold run
    split
    · exact ⟨[], .refl _⟩
    · split
      next s' h =>
        obtain ⟨τs, hτs⟩ := advance_trace h
        obtain ⟨τs', hτs'⟩ := ih s'
        exact ⟨τs ++ τs', hτs.append hτs'⟩
      · exact ⟨[], .refl _⟩

theorem outcome?_eq (s : Scheduler) : s.outcome? = s.machine.outcome? 0 := by
  unfold outcome? Machine.outcome?
  rcases s.machine.tasks[0]? with _ | ⟨id, prog, frames⟩
  · rfl
  · cases prog <;> cases frames <;> rfl

end Scheduler

namespace Demo

open World Machine

variable {w : World} {d : Plan}

/-! ## Before and after the run -/

/-- The settings and the files with which the program is run, unless the options, the manifest or the log file
forbid that. -/
def launch (w : World) (o : Options) : Except Failure (Config × Files) :=
  if o.workers < 1 ∨ o.rounds < 0 then .error .badCounts
  else match config w.environment w.files o with
  | .error e => .error (.manifest e)
  | .ok c =>
    match openLog c w.files with
    | .error e => .error (.log e)
    | .ok files => .ok (c, files)

/-- What is returned when a machine has run the program. -/
def returned (n : Machine) : Except Failure Unit × World :=
  match n.outcome? 0 with
  | some (.error e) => (.error (.failed e), n.world)
  | some (.panic p) => (.error (.panicked p), n.world)
  | _ => (.ok (), n.world)

/-- The program returns what forbids to run it, and has changed nothing then. Otherwise it returns what the scheduler
makes of it. -/
theorem run_eq (w : World) (o : Options) : run w o = match launch w o with
    | .error f => (.error f, w)
    | .ok (c, files) => returned (Scheduler.run Scheduler.ample
        { machine := beginning { w with files } c o.workers.toNat o.rounds.toNat }).machine := by
  unfold run launch
  split
  · rfl
  cases config w.environment w.files o with
  | error e => rfl
  | ok c =>
    dsimp only
    cases openLog c w.files with
    | error e => rfl
    | ok files =>
      unfold returned Scheduler.runProg beginning
      dsimp only
      generalize Scheduler.run _ _ = s
      rw [← Scheduler.outcome?_eq]
      rcases s.outcome? with _ | _ | _ | _ <;> rfl

/-! ## At the end of a run -/

/-- What the shutdown barrier of a runtime has left behind: it was passed once. If the wait had no bound then all
threads that were started have terminated. If a report is wanted and can be written then it was. -/
structure Closed (c : Config) (home : RuntimeId) (files : Files) (v : World) : Prop where
  barriers : v.Counted home 1
  terminated : c.shutdownTimeout = 0 → ∀ o ∈ v.startedThreads home, v.isTerminated o
  report : c.reportPath ≠ [] → (∃ content after, files.write c.reportPath content = .ok after) →
    ∃ report : Report, v.files.read c.reportPath = .ok report.encode

/-- What was filed can be read. -/
theorem Plan.Filed.read {path before after} (h : Plan.Filed path before after) (hpath : path ≠ [])
    (hwritable : ∃ content fs, before.write path content = .ok fs) :
    ∃ report : Report, after.read path = .ok report.encode := by
  rcases h with ⟨report, hwrite⟩ | ⟨-, hnone | ⟨e, hrefused⟩⟩
  · exact ⟨report, Files.read_write hwrite⟩
  · exact absurd hnone hpath
  · obtain ⟨content, fs, hwrite⟩ := hwritable
    cases (hrefused content).symm.trans hwrite

/-- The main program at the end of a run: it rests, and its part fits the world. -/
theorem Plan.over_of_trace (hw : w.Fresh) (hnone : w.globalRuntime = none) (hhome : d.home = w.runtimes.size)
    {P : Machine → Turn → Prop} {τs n} (hrun : Trace P (beginning w d.config d.workers d.rounds) τs n) {out}
    (hout : n.outcome? 0 = some out) : d.Over (account w) (.alone n.world) out ∨
      ∃ m s h, d.Over (account w) (.lead m) out ∧ d.Concord m s h n.world := by
  have habides := abides_pact (E := d.Over (account w)) hw hnone hhome fun _ _ h => h
  obtain ⟨Q, hn, -⟩ := habides.trace (initial_beginning hw ..).reachable hrun
  obtain ⟨b, hb, hends⟩ := hn.ends hout
  rcases hn.joint with rfl | ⟨m, s, h, rfl, hc⟩
  · cases hb
    exact .inl hends
  · cases hb
    exact .inr ⟨m, s, h, hends, hc⟩

/-- A main program that has passed the barrier leaves it closed. -/
theorem Plan.Passed.closed {v m s h shown} (hpassed : d.Passed (account w) shown m) (hc : d.Concord m s h v)
    (htasks : 0 < w.tasks) : Closed d.config d.home w.files v := by
  obtain ⟨hcounted, hfiles, -⟩ := hc.leads.books
  refine ⟨?_, fun hzero o ho => ?_, ?_⟩
  · rw [hpassed.barriers] at hcounted
    exact hcounted
  · rw [hc.leads.started, hpassed.enrolled] at ho
    obtain ⟨q, hq, rfl⟩ := List.mem_map.mp ho
    have hlt : q < m.begun := by
      rw [hpassed.begun]
      exact List.mem_range.mp hq
    have hstate := hc.settled (hpassed.settled hzero htasks) q hlt
    unfold isTerminated
    rw [(hc.holds q hlt).thread]
    exact beq_iff_eq.mpr hstate
  · rw [hfiles]
    exact hpassed.files.read

/-- **The barrier is passed if there is room for everything.** What forbids to run the program is returned at once, and
nothing has changed then. Otherwise what is returned comes from one of the runs of a machine, and the following holds
at the end of each of these runs. The shared runtime is discarded. If there is room then all threads were started, and
the barrier was passed. If there is none then either no thread was started, or all were, and the main program has left
with an error before the barrier: nothing is counted or written. -/
theorem barrier_passed_iff_room {w : World} (hw : w.Fresh) (hnone : w.globalRuntime = none) (htasks : 0 < w.tasks)
    (o : Options) :
    (∀ f, launch w o = .error f → run w o = (.error f, w)) ∧
    ∀ {c files}, launch w o = .ok (c, files) →
      (∃ τs n, Trace (fun _ _ => True) (beginning { w with files } c o.workers.toNat o.rounds.toNat) τs n ∧
        run w o = returned n) ∧
      ∀ {P : Machine → Turn → Prop} {τs : List Turn} {n : Machine} {out : Outcome},
        Trace P (beginning { w with files } c o.workers.toNat o.rounds.toNat) τs n → n.outcome? 0 = some out →
        n.world.globalRuntime = none ∧
        (HasRoom c o.workers.toNat o.rounds.toNat →
          (n.world.startedThreads w.runtimes.size).length = o.workers.toNat + 1 ∧
          Closed c w.runtimes.size files n.world) ∧
        (¬ HasRoom c o.workers.toNat o.rounds.toNat →
          n.world.startedThreads w.runtimes.size = [] ∨
          (n.world.startedThreads w.runtimes.size).length = o.workers.toNat + 1 ∧ (∃ e, out = .error e) ∧
            n.world.Counted w.runtimes.size 0 ∧ n.world.files = files) := by
  refine ⟨fun f hf => by rw [run_eq, hf], fun {c files} hlaunch => ⟨?_, fun {P τs n out} hrun hout => ?_⟩⟩
  · rw [run_eq, hlaunch]
    obtain ⟨τs, hτs⟩ := Scheduler.run_trace Scheduler.ample
      { machine := beginning { w with files } c o.workers.toNat o.rounds.toNat }
    exact ⟨τs, _, hτs, rfl⟩
  let d : Plan := { config := c, workers := o.workers.toNat, rounds := o.rounds.toNat, home := w.runtimes.size }
  have hfresh : World.Fresh { w with files } := ⟨hw.objects, hw.tables, hw.runtime, hw.named, hw.shared⟩
  have hlength {m : Lead} (h : m.enrolled = (List.range (d.workers + 1)).map d.thr) :
      m.enrolled.length = d.workers + 1 := by
    rw [h, List.length_map, List.length_range]
  rcases Plan.over_of_trace (d := d) hfresh hnone rfl hrun hout with ⟨hrests, hsharing⟩ |
    ⟨m, s, h, ⟨hrests, hsharing⟩, hc⟩
  · cases hrests with
    | unbegun room started => exact ⟨hsharing, fun h => absurd h room, fun _ => .inl started⟩
  · refine ⟨hc.leads.sharing.trans hsharing, ?_⟩
    rw [show n.world.startedThreads w.runtimes.size = m.enrolled from hc.leads.started]
    cases hrests with
    | early room enrolled ledger shown =>
      obtain ⟨hcounted, hfiles, -⟩ := hc.leads.books
      rw [ledger] at hcounted hfiles
      exact ⟨fun h => absurd h room, fun _ => .inr ⟨hlength enrolled, ⟨_, rfl⟩, hcounted, hfiles⟩⟩
    | passed room shuffle passed =>
      exact ⟨fun _ => ⟨hlength passed.enrolled, passed.closed hc htasks⟩, fun h => absurd room h⟩

/-- Two workers with one round each, and a report. -/
def reporting : Options := { configDir := "", workers := 2, rounds := 1, report := "r.cbor" }

/-- The default settings with that report. -/
def reportingSettings : Config := { reportPath := "r.cbor" }

/-- Where the scheduler leads for these options. -/
def reported : Machine := (Scheduler.run Scheduler.ample { machine := beginning {} reportingSettings 2 1 }).machine

/-- There is room for two workers, so that the barrier was passed in the end, and a report was written. -/
theorem barrier_passed_two_workers : World.Fresh {} ∧ ({} : World).globalRuntime = none ∧
    0 < ({} : World).tasks ∧ launch {} reporting = .ok (reportingSettings, {}) ∧
    reported.outcome? 0 = some (.value .null) ∧ reported.world.globalRuntime = none ∧
    (reported.world.startedThreads 0).length = 3 ∧ Closed reportingSettings 0 {} reported.world ∧
    ∃ report : Report, reported.world.files.read "r.cbor" = .ok report.encode := by
  have hfresh : World.Fresh {} := by
    refine ⟨rfl, rfl, fun {r rt} hr => ?_, nofun, nofun⟩
    cases (Array.getElem?_eq_none (Nat.zero_le r)).symm.trans hr
  have hlaunch : launch {} reporting = .ok (reportingSettings, {}) := by decide +kernel
  have hroom : HasRoom reportingSettings 2 1 := by
    constructor <;> decide +kernel
  have hout : reported.outcome? 0 = some (.value .null) := by decide +kernel
  have hrun : ∃ τs, Trace (fun _ _ => True) (beginning {} reportingSettings 2 1) τs reported :=
    Scheduler.run_trace Scheduler.ample { machine := beginning {} reportingSettings 2 1 }
  obtain ⟨τs, hrun⟩ := hrun
  obtain ⟨hsharing, hpassed, -⟩ :=
    ((barrier_passed_iff_room hfresh rfl Nat.one_pos reporting).2 hlaunch).2 hrun hout
  obtain ⟨hlength, hclosed⟩ := hpassed hroom
  exact ⟨hfresh, rfl, Nat.one_pos, hlaunch, hout, hsharing, hlength, hclosed, hclosed.report nofun ⟨[], _, rfl⟩⟩

/-- A manifest that allows texts of one character. -/
def cramped : World := { files := { nodes := [(["rjava.toml"], .file "[text]\nmax-length = 1\n")] } }

/-- One worker with three rounds, and a report. -/
def overreaching : Options := { reporting with workers := 1, rounds := 3 }

/-- **The barrier can be left out.** The worker cannot make a text of its first piece, and the main program returns
that failure. By then it has started two threads, but no run of the barrier was counted, and there is no report
although it could be written. -/
theorem barrier_left_out : ∃ c, launch cramped overreaching = .ok (c, cramped.files) ∧ c.shutdownTimeout = 0 ∧
    c.reportPath = "r.cbor" ∧ (cramped.files.write "r.cbor" []).isOk ∧
    (run cramped overreaching).2.startedThreads 0 = [1, 4] ∧
    ((run cramped overreaching).2.runtime? 0).map (·.barriers) = some 0 ∧
    (run cramped overreaching).2.files.exists? "r.cbor" = false :=
  ⟨{ maxStringLength := 1, reportPath := "r.cbor" }, by decide +kernel, rfl, rfl, by decide +kernel,
    by decide +kernel, by decide +kernel, by decide +kernel⟩

end Demo

end ObjectKernel
