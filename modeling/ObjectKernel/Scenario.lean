import ObjectKernel.Scheduler

/-!
# Scenarios

A script that runs on a fresh runtime in given surroundings, and the record it leaves.

## Contents

* `Scenario`, `Record`.
* `Scenario.run`.
-/

namespace ObjectKernel

/-- A script with its surroundings. An absent patch stands for the default settings. -/
structure Scenario where
  environment : Environment := []
  files : Files := {}
  patch : Option ConfigPatch := some {}
  script : Script

/-- What a scenario leaves: the outcome of every step of its script, and its log. -/
structure Record where
  answers : List Entry
  log : List Entry

namespace Scenario

/-- The world before a scenario has a runtime. -/
def world (s : Scenario) : World := { environment := s.environment, files := s.files }

/-- The settings of the runtime of a scenario. -/
def config (s : Scenario) : Option Config :=
  s.patch.map fun p => p.apply (.default s.environment)

/-- Runs a scenario, unless its settings are refused. -/
def run (s : Scenario) : Except Err Record :=
  match s.world.newRuntime s.config with
  | .error e => .error (.invalidConfig e)
  | .ok (home, w) =>
    let w := w.edit (.nameRuntime mainName home)
    let (w, _) := Scheduler.runProg w (Script.main { home := some home } s.script).toProgUnit
    .ok { answers := w.scene.answers.reverse, log := w.scene.log.reverse }

end Scenario

end ObjectKernel
