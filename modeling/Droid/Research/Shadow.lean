import Droid.Lib.Patch
import Droid.Lib.Text

/-! The model line of a shadow forecast: scopes of concurrent tasks patch one reader of the module, and each task
overrides the line for itself. -/
namespace Droid.Research.Shadow
open Lib Lib.Patch

def FORECAST_V2_MODEL_DEFAULT : String := "v1"
def SHADOW_MODEL_V1 : String := "v1"
def SHADOW_MODEL_V2 : String := "logistic-v2"

/-- `_forecast_v2_model_flag`, with the variable of the environment. -/
def forecastV2ModelFlag (env : Option String) : String :=
  let raw := env.getD FORECAST_V2_MODEL_DEFAULT
  let raw := if raw = "" then FORECAST_V2_MODEL_DEFAULT else raw
  let flag := Text.lower (Text.strip raw)
  if flag = "" then FORECAST_V2_MODEL_DEFAULT else flag

/-- A function that the module may hold under the name of the reader. -/
inductive Reader where
  | forecastV2ModelFlag
  | patched (original : Reader)
  deriving DecidableEq, Repr

/-- The answer of a reader to a task with an override, or without. -/
def Reader.call (override env : Option String) : Reader → String
  | .forecastV2ModelFlag => Shadow.forecastV2ModelFlag env
  | .patched original =>
    match override with
    | some model => Text.lower (Text.strip model)
    | none => original.call none env

/-- An open `_shadow_model_scope`: its model, the token of the override, and the reader that it found. -/
structure Frame where
  model : String
  token : Option String
  original : Reader
  deriving DecidableEq, Repr

structure State (Task : Type) where
  reader : Reader
  override : Task → Option String
  frames : Task → List Frame

/-- `_call_forecast` enters a scope, reads the line any number of times, and leaves the scope. -/
inductive Event (Task : Type) where
  | enter (task : Task) (model : String)
  | read (task : Task) (env : Option String)
  | leave (task : Task)
  deriving DecidableEq, Repr

variable {Task : Type} [DecidableEq Task]

def initial : State Task := ⟨.forecastV2ModelFlag, fun _ => none, fun _ => []⟩

def step (s : State Task) : Event Task → State Task
  | .enter task model =>
    { reader := .patched s.reader
      override := Function.update s.override task (some model)
      frames := Function.update s.frames task (⟨model, s.override task, s.reader⟩ :: s.frames task) }
  | .read _ _ => s
  | .leave task =>
    match s.frames task with
    | [] => s
    | frame :: rest =>
      { reader := frame.original
        override := Function.update s.override task frame.token
        frames := Function.update s.frames task rest }

def after (events : List (Event Task)) : State Task := run step initial events

def State.answer (s : State Task) (task : Task) (env : Option String) : String :=
  s.reader.call (s.override task) env

/-- The interleavings of tasks: a scope is left by the task that is inside it. -/
def Interleaving (events : List (Event Task)) : Prop :=
  Lib.Guarded step (fun s e => ∀ task, e = .leave task → s.frames task ≠ []) initial events

def Serialized (events : List (Event Task)) : Prop :=
  Lib.Guarded step (fun s e => ∀ task model, e = .enter task model → ∀ other, other ≠ task → s.frames other = [])
    initial events

def Event.move? : Event Task → Option (Move Task)
  | .enter task _ => some (.enter task)
  | .read _ _ => none
  | .leave task => some (.leave task)

def moves (events : List (Event Task)) : List (Move Task) := events.filterMap Event.move?

/-! ### Readers -/

theorem call_without_override (reader : Reader) (env : Option String) :
    reader.call none env = forecastV2ModelFlag env := by
  induction reader with
  | forecastV2ModelFlag => rfl
  | patched original ih => exact ih

theorem call_override {reader : Reader} (h : reader ≠ .forecastV2ModelFlag) (model : String) (env : Option String) :
    reader.call (some model) env = Text.lower (Text.strip model) := by
  cases reader with
  | forecastV2ModelFlag => exact absurd rfl h
  | patched original => rfl

/-! ### Overrides -/

/-- The override of a task is the model of its inmost scope, and its token the override around it. -/
def Tokens : Option String → List Frame → Prop
  | override, [] => override = none
  | override, frame :: rest => override = some frame.model ∧ Tokens frame.token rest

theorem tokens_step {s : State Task} (h : ∀ task, Tokens (s.override task) (s.frames task)) (e : Event Task)
    (task : Task) : Tokens ((step s e).override task) ((step s e).frames task) := by
  cases e with
  | enter current model =>
    by_cases hsame : task = current
    · subst hsame
      simp only [step, Function.update_self]
      exact ⟨rfl, h task⟩
    · simp only [step, Function.update_of_ne hsame]
      exact h task
  | read current env => exact h task
  | leave current =>
    rw [step]
    have hcurrent := h current
    cases hframes : s.frames current with
    | nil => exact h task
    | cons frame rest =>
      rw [hframes] at hcurrent
      by_cases hsame : task = current
      · subst hsame
        simp only [Function.update_self]
        exact hcurrent.2
      · simp only [Function.update_of_ne hsame]
        exact h task

theorem tokens_after (events : List (Event Task)) (task : Task) :
    Tokens ((after events).override task) ((after events).frames task) :=
  run_of_always (always_of_step (P := fun s : State Task => ∀ task, Tokens (s.override task) (s.frames task))
    (fun _ e hs => tokens_step hs e) (s := initial) (fun _ => rfl) events) task

/-! ### The patched cell -/

/-- The reader of the module as a cell that scopes patch. -/
def State.shared (s : State Task) : Shared Task Reader := ⟨s.reader, fun task => (s.frames task).map Frame.original⟩

theorem shared_step (s : State Task) (e : Event Task) :
    (step s e).shared = (e.move?.map (move .patched s.shared)).getD s.shared := by
  have hsaved : ∀ task frames, (fun other => (Function.update s.frames task frames other).map Frame.original) =
      Function.update s.shared.saved task (frames.map Frame.original) := by
    intro task frames
    funext other
    by_cases hsame : other = task
    · subst hsame
      simp
    · simp [Function.update_of_ne hsame, State.shared]
  cases e with
  | enter task model => exact congrArg (Shared.mk _) (hsaved task _)
  | read task env => rfl
  | leave task =>
    cases hframes : s.frames task with
    | nil => simp [step, hframes, Event.move?, move, State.shared]
    | cons frame rest =>
      have hshared : s.shared.saved task = frame.original :: rest.map Frame.original := by
        simp [State.shared, hframes]
      rw [step, hframes, Event.move?, Option.map_some, Option.getD_some, move_leave hshared]
      exact congrArg (Shared.mk _) (hsaved task rest)

theorem shared_run (s : State Task) (events : List (Event Task)) :
    (run step s events).shared = run (move .patched) s.shared (moves events) := by
  induction events generalizing s with
  | nil => rfl
  | cons e events ih =>
    rw [run_cons, ih, shared_step, moves, moves]
    cases hmove : e.move? with
    | none => rw [List.filterMap_cons_none hmove]; rfl
    | some m => rw [List.filterMap_cons_some hmove]; rfl

theorem shared_after (events : List (Event Task)) :
    (after events).shared = Patch.after Reader.patched Reader.forecastV2ModelFlag (moves events) := shared_run initial events

theorem guarded_moves {G : State Task → Event Task → Prop} {H : Shared Task Reader → Move Task → Prop}
    (h : ∀ s e m, e.move? = some m → G s e → H s.shared m) {s : State Task} {events : List (Event Task)}
    (hg : Lib.Guarded step G s events) : Lib.Guarded (move .patched) H s.shared (moves events) := by
  induction events generalizing s with
  | nil => trivial
  | cons e events ih =>
    have htail := ih hg.2
    rw [shared_step] at htail
    rw [moves]
    cases hmove : e.move? with
    | none =>
      rw [hmove] at htail
      rw [List.filterMap_cons_none hmove]
      exact htail
    | some m =>
      rw [hmove] at htail
      rw [List.filterMap_cons_some hmove]
      exact ⟨h s e m hmove hg.1, htail⟩

theorem Interleaving.paired {events : List (Event Task)} (h : Interleaving events) :
    Paired Reader.patched Reader.forecastV2ModelFlag (moves events) := by
  apply guarded_moves _ h
  rintro s e m hmove hguard task rfl
  cases e with
  | enter current model => cases hmove
  | read current env => cases hmove
  | leave current =>
    obtain rfl : current = task := Move.leave.inj (Option.some.inj hmove)
    simpa [State.shared] using hguard current rfl

theorem Serialized.serial {events : List (Event Task)} (h : Serialized events) :
    Serial Reader.patched Reader.forecastV2ModelFlag (moves events) := by
  apply guarded_moves _ h
  rintro s e m hmove hguard task rfl other hother
  cases e with
  | enter current model =>
    obtain rfl : current = task := Move.enter.inj (Option.some.inj hmove)
    simpa [State.shared] using hguard current model rfl other hother
  | read current env => cases hmove
  | leave current => cases hmove

theorem Interleaving.before {pre events : List (Event Task)} (h : Interleaving events) (hp : pre <+: events) :
    Interleaving pre := by
  obtain ⟨post, rfl⟩ := hp
  exact ((guarded_append _ _ _ _ _).mp h).1

theorem Serialized.before {pre events : List (Event Task)} (h : Serialized events) (hp : pre <+: events) :
    Serialized pre := by
  obtain ⟨post, rfl⟩ := hp
  exact ((guarded_append _ _ _ _ _).mp h).1

/-! ### What is read -/

theorem answer_outside {events : List (Event Task)} {task : Task} (h : (after events).frames task = [])
    (env : Option String) : (after events).answer task env = forecastV2ModelFlag env := by
  have htokens := tokens_after events task
  rw [h] at htokens
  rw [State.answer, show (after events).override task = none from htokens, call_without_override]

theorem override_inside {events : List (Event Task)} {task : Task} {frame : Frame} {rest : List Frame}
    (h : (after events).frames task = frame :: rest) : (after events).override task = some frame.model := by
  have htokens := tokens_after events task
  rw [h] at htokens
  exact htokens.1

/-- Inside a scope the model is read unless the first reader is back. -/
theorem answer_patched {events : List (Event Task)} {task : Task} {frame : Frame} {rest : List Frame}
    (h : (after events).frames task = frame :: rest) (hreader : (after events).reader ≠ .forecastV2ModelFlag)
    (env : Option String) : (after events).answer task env = Text.lower (Text.strip frame.model) := by
  rw [State.answer, override_inside h, call_override hreader]

theorem patched_ne (reader : Reader) : reader.patched ≠ .forecastV2ModelFlag := by
  intro h
  cases h

theorem reader_eq_iff {events : List (Event Task)} (h : Interleaving events) :
    (after events).reader = .forecastV2ModelFlag ↔ Flat (moves events) := by
  have hcell := cell_eq_base_iff patched_ne h.paired
  rwa [← shared_after] at hcell

theorem reader_ne_of_serialized {events : List (Event Task)} (h : Serialized events) {task : Task}
    (hopen : (after events).frames task ≠ []) : (after events).reader ≠ .forecastV2ModelFlag := by
  have hsaved : (Patch.after Reader.patched Reader.forecastV2ModelFlag (moves events)).saved task ≠ [] := by
    rw [← shared_after]
    simpa [State.shared] using hopen
  have hcell := cell_ne_of_serial patched_ne h.serial hsaved
  rwa [← shared_after] at hcell

/-- Each task reads its own model inside its scope, and the first reader's answer outside. -/
structure Isolated (events : List (Event Task)) : Prop where
  own : ∀ pre task env, pre ++ [.read task env] <+: events → ∀ frame rest, (after pre).frames task = frame :: rest →
    (after pre).answer task env = Text.lower (Text.strip frame.model)
  outside : ∀ pre task env, pre ++ [.read task env] <+: events → (after pre).frames task = [] →
    (after pre).answer task env = forecastV2ModelFlag env
  finished : (∀ task, (after events).frames task = []) →
    ∀ task env, (after events).answer task env = forecastV2ModelFlag env

/-- What holds of overlapping scopes. -/
structure Shadowed (events : List (Event Task)) : Prop where
  own : ∀ pre task env, pre ++ [.read task env] <+: events → ∀ frame rest, (after pre).frames task = frame :: rest →
    ¬ Flat (moves pre) → (after pre).answer task env = Text.lower (Text.strip frame.model)
  restored : ∀ pre task env, pre ++ [.read task env] <+: events → Flat (moves pre) →
    (after pre).answer task env = forecastV2ModelFlag env
  outside : ∀ pre task env, pre ++ [.read task env] <+: events → (after pre).frames task = [] →
    (after pre).answer task env = forecastV2ModelFlag env
  finished : (∀ task, (after events).frames task = []) →
    ∀ task env, (after events).answer task env = forecastV2ModelFlag env
  serialized : Serialized events → Isolated events

theorem shadowed_of_interleaving {events : List (Event Task)} (h : Interleaving events) : Shadowed events where
  own := by
    intro pre task env hread frame rest hframes hflat
    have hpre := h.before ((List.prefix_append _ _).trans hread)
    exact answer_patched hframes (fun hreader => hflat ((reader_eq_iff hpre).mp hreader)) env
  restored := by
    intro pre task env hread hflat
    have hpre := h.before ((List.prefix_append _ _).trans hread)
    rw [State.answer, (reader_eq_iff hpre).mpr hflat]
    rfl
  outside := fun pre task env _ hframes => answer_outside hframes env
  finished := fun hframes task env => answer_outside (hframes task) env
  serialized := by
    intro hserialized
    refine ⟨?_, fun pre task env _ hframes => answer_outside hframes env,
      fun hframes task env => answer_outside (hframes task) env⟩
    intro pre task env hread frame rest hframes
    have hpre := hserialized.before ((List.prefix_append _ _).trans hread)
    have hopen : (after pre).frames task ≠ [] := by
      rw [hframes]
      exact List.cons_ne_nil _ _
    exact answer_patched hframes (reader_ne_of_serialized hpre hopen) env

/-- The scope of the second task outlives that of the first, which it has found. -/
def overlap : List (Event Nat) :=
  [.enter 1 SHADOW_MODEL_V1, .enter 2 SHADOW_MODEL_V2, .leave 1, .read 2 none, .leave 2]

theorem overlap_interleaving : Interleaving overlap := by
  simp [Interleaving, overlap, Lib.Guarded, step, initial]

theorem overlap_shadowed : Interleaving overlap ∧ Shadowed overlap :=
  ⟨overlap_interleaving, shadowed_of_interleaving overlap_interleaving⟩

theorem overlap_misread : Interleaving overlap ∧ ¬ Isolated overlap := by
  refine ⟨overlap_interleaving, fun h => ?_⟩
  have hread : [.enter 1 SHADOW_MODEL_V1, .enter 2 SHADOW_MODEL_V2, .leave 1] ++ [.read 2 none] <+: overlap :=
    List.prefix_append _ [Event.leave 2]
  have hown := h.own _ 2 none hread ⟨SHADOW_MODEL_V2, none, .patched .forecastV2ModelFlag⟩ [] rfl
  exact absurd hown (by decide +kernel)

end Droid.Research.Shadow
