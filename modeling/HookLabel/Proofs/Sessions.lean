import HookLabel.Proofs.Runs
import HookLabel.Session

/-!
# Sessions as runs of passes

The steps of a session take passes over its module: `Session.passes` lists them, each with the
configuration, the resolver and the count that the session holds when it takes the step.  The module
of a session is its first module after these passes (`module_afterSteps`), so what holds of every
run of passes holds of every session (`extends_afterSteps`).

A session holds the configuration it started with or one that a text has set
(`config_invariant`); a text that is refused changes nothing.  So whoever starts with a usable
configuration labels with usable ones throughout (`fault?_passes`).
-/

namespace HookLabel

/-- A configuration that is read from a text is usable. -/
lemma Config.fault?_of_ofText {text : String} {config : Config} (h : ofText text = .ok config) :
    config.fault? = none := by
  unfold ofText at h
  cases hread : read text with
  | error cause => rw [hread] at h; cases h
  | ok read =>
    rw [hread] at h
    cases hfault : read.fault? with
    | some fault => simp only [hfault] at h; cases h
    | none =>
      simp only [hfault] at h
      cases h
      exact hfault

namespace Session

/-! ### Steps and passes -/

/-- The session after the steps of a list, from left to right. -/
def afterSteps (s : Session) : List Step → Session
  | [] => s
  | step :: steps => (s.step step).1.afterSteps steps

/-- The pass over the module that a step takes, if it takes one. -/
def pass? (s : Session) : Step → Option Pass
  | .configure _ | .collect | .query _ _ => none
  | .label resolver => some (.label s.config (resolver.getD s.imports.resolves))
  | .addImport labelCount =>
    some (.addImport s.config { labelCount := labelCount.getD s.labelCount })
  | .run => some (.run s.config)

/-- The passes that the steps of a list take. -/
def passes (s : Session) : List Step → List Pass
  | [] => []
  | step :: steps => (s.pass? step).toList ++ (s.step step).1.passes steps

/-- A step does to the module what its pass does, and nothing if it takes none. -/
lemma module_step (s : Session) (step : Step) :
    (s.step step).1.module = s.module.afterPasses (s.pass? step).toList := by
  cases step with
  | configure text =>
    rw [Session.step]
    cases Config.ofText text <;> rfl
  | _ => rfl

/-- The module of a session is its first module after the passes that the steps have taken. -/
theorem module_afterSteps (s : Session) (steps : List Step) :
    (s.afterSteps steps).module = s.module.afterPasses (s.passes steps) := by
  induction steps generalizing s with
  | nil => rfl
  | cons step steps ih =>
    rw [afterSteps, passes, Module.afterPasses_append, ← module_step]
    exact ih (s.step step).1

/-! ### Configurations -/

/-- A step keeps the configuration, or sets the one that its text describes. -/
lemma config_step (s : Session) (step : Step) :
    (s.step step).1.config = s.config ∨
      ∃ text, step = .configure text ∧ Config.ofText text = .ok (s.step step).1.config := by
  cases step with
  | configure text =>
    cases h : Config.ofText text with
    | error e => exact .inl (by rw [Session.step, h])
    | ok config => exact .inr ⟨text, rfl, by rw [Session.step, h]⟩
  | _ => exact .inl rfl

/-- The pass of a step has the configuration of the session. -/
lemma config_of_pass? {s : Session} {step : Step} {p : Pass} (h : s.pass? step = some p) :
    p.config = s.config := by
  cases step with
  | configure _ | collect | query _ _ => cases h
  | label _ | addImport _ | run => cases h; rfl

/-- What holds of the configuration that a session starts with, and of every one that a text among
its steps describes, holds of the configuration in the end and of those of all passes between. -/
theorem config_invariant {P : Config → Prop} {s : Session} {steps : List Step}
    (hstart : P s.config)
    (hset : ∀ text config, .configure text ∈ steps → Config.ofText text = .ok config → P config) :
    P (s.afterSteps steps).config ∧ ∀ p ∈ s.passes steps, P p.config := by
  induction steps generalizing s with
  | nil => exact ⟨hstart, nofun⟩
  | cons step steps ih =>
    have hnext : P (s.step step).1.config := by
      rcases s.config_step step with hkept | ⟨text, rfl, hread⟩
      · exact hkept ▸ hstart
      · exact hset text _ List.mem_cons_self hread
    obtain ⟨hend, hlater⟩ := ih hnext fun text config hmem =>
      hset text config (List.mem_cons_of_mem step hmem)
    refine ⟨hend, fun p hp => ?_⟩
    rcases List.mem_append.mp hp with hp | hp
    · rw [config_of_pass? (Option.mem_toList.mp hp)]
      exact hstart
    · exact hlater p hp

/-- A session that starts with a usable configuration has one in the end, and takes every pass with
one. -/
theorem fault?_passes {s : Session} (hstart : s.config.fault? = none) (steps : List Step) :
    (s.afterSteps steps).config.fault? = none ∧ ∀ p ∈ s.passes steps, p.config.fault? = none :=
  config_invariant (P := fun config => config.fault? = none) hstart
    fun _ _ _ hread => Config.fault?_of_ofText hread

/-- After any session whose helpers are among `names`, the module has the imports that the session
has made, the last one first, and behind them its items with nothing but helper calls put around
calls in them. -/
theorem extends_afterSteps {names : String → Bool} {s : Session} {steps : List Step}
    (hstart : names s.config.wrapperName)
    (hset : ∀ text config, .configure text ∈ steps → Config.ofText text = .ok config →
      names config.wrapperName) :
    Module.Extends names s.module (s.afterSteps steps).module
      (s.module.injections (s.passes steps)) := by
  have hnames := (config_invariant (P := fun config => names config.wrapperName) hstart hset).2
  have horigin : Module.Extends names s.module s.module [] := ⟨⟨s.module.body, rfl, rfl⟩, rfl⟩
  rw [module_afterSteps]
  exact horigin.afterPasses hnames

/-! ### Answers -/

/-- A configuration that is refused leaves the session as it is. -/
theorem step_of_refused {s : Session} {step : Step} {e : ConfigError}
    (h : (s.step step).2 = .configured (.error e)) : (s.step step).1 = s := by
  cases step with
  | configure text =>
    cases hread : Config.ofText text with
    | error _ => rw [Session.step, hread]
    | ok config => rw [Session.step, hread] at h; cases h
  | _ => cases h

/-- What is answered to later steps depends on earlier ones only through the session that these
leave. -/
theorem answers_append (s : Session) (earlier later : List Step) :
    s.answers (earlier ++ later) = s.answers earlier ++ (s.afterSteps earlier).answers later := by
  induction earlier generalizing s with
  | nil => rfl
  | cons step earlier ih => exact congrArg ((s.step step).2 :: ·) (ih (s.step step).1)

/-- Every step is answered once. -/
theorem length_answers (s : Session) (steps : List Step) :
    (s.answers steps).length = steps.length := by
  induction steps generalizing s with
  | nil => rfl
  | cons step steps ih => exact congrArg (· + 1) (ih (s.step step).1)

/-- Running is collecting the imports, labelling by them and adding the import of the helper for
what was labelled: the module becomes the same, and the log of the run is the logs of the two. -/
theorem run_eq_three_steps (s : Session) :
    ∃ labelled imported : Labelled Module,
      s.answers [.collect, .label none, .addImport none] =
        [.collected, .labelled labelled,
          .imported labelled.log.isDirty labelled.log.isDirty imported] ∧
      s.answers [.run] = [.ran ⟨imported.value, labelled.log ++ imported.log⟩] ∧
      (s.afterSteps [.collect, .label none, .addImport none]).module =
        (s.afterSteps [.run]).module :=
  ⟨_, _, rfl, rfl, rfl⟩

end Session

end HookLabel
