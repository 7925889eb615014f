import ShellWalk.Walk.Step

set_option autoImplicit false

namespace ShellWalk

namespace Step

def andThen (first second : Step) : Step := fun context => do
  let after ← first context
  second after

def update (change : Context → Context) : Step := fun context => .ok (change context)

def leaveScope : Step := fun context => context.settle context.popScope

theorem leaveScope_ok (before after : Context) (done : leaveScope before = .ok after) :
    before.popScope = .ok after := by
  unfold leaveScope at done
  cases popped : before.popScope with
  | error message => simp [popped, Context.settle] at done
  | ok outer =>
      simp only [popped, Context.settle] at done
      cases done
      rfl

theorem andThen_ok (first second : Step) (before after : Context)
    (done : first.andThen second before = .ok after) :
    ∃ between, first before = .ok between ∧ second between = .ok after := by
  unfold andThen at done
  cases ran : first before with
  | error halt => simp [ran, bind, Except.bind] at done
  | ok between => exact ⟨between, rfl, by simpa [ran, bind, Except.bind] using done⟩

theorem andThen_of_ok (first second : Step) (before between : Context)
    (ran : first before = .ok between) : first.andThen second before = second between := by
  simp [andThen, ran, bind, Except.bind]

theorem andThen_of_error (first second : Step) (before : Context) (halt : Halt)
    (ran : first before = .error halt) : first.andThen second before = .error halt := by
  simp [andThen, ran, bind, Except.bind]

theorem andThen_skip (step : Step) : step.andThen skip = step := by
  funext context
  unfold andThen
  cases step context <;> rfl

theorem sequence_single (step : Step) : sequence [step] = step := by
  funext context
  change (do let after ← step context; if after.stops then .ok after else .ok after) = _
  simp only [ite_self]
  cases step context <;> rfl

end Step

variable {Run : Type} {P : (Run → Step) → Prop}

-- What the runs do next may hang on `read` when the property holds for each value read: two runs
-- in different contexts may then only read what these contexts have in common.
def Reads (P : (Run → Step) → Prop) {α : Type} (read : Context → α) : Prop :=
  ∀ next : Run → α → Step, (∀ value, P fun run => next run value) →
    P fun run context => next run (read context) context

namespace Reads

variable {α β : Type}

theorem const (value : α) : Reads P fun _ => value := fun _ holds => holds value

theorem map {read : Context → α} (reads : Reads P read) (f : α → β) :
    Reads P fun context => f (read context) :=
  fun next holds => reads (fun run value => next run (f value)) fun value => holds (f value)

theorem map₂ {γ : Type} {read : Context → α} {other : Context → β} (reads : Reads P read)
    (others : Reads P other) (f : α → β → γ) :
    Reads P fun context => f (read context) (other context) := by
  intro next holds
  refine reads (fun run value context => next run (f value (other context)) context) fun value => ?_
  exact others (fun run second => next run (f value second)) fun second => holds (f value second)

theorem list (items : List α) (read : α → Context → β)
    (each : ∀ item ∈ items, Reads P (read item)) :
    Reads P fun context => items.map fun item => read item context := by
  induction items with
  | nil => exact const []
  | cons item rest ih =>
      have later := ih fun other member => each other (by simp [member])
      exact map₂ (each item (by simp)) later List.cons

theorem branch {test : Context → Bool} (reads : Reads P test) (yes no : Run → Step)
    (first : P yes) (second : P no) :
    P fun run context => if test context then yes run context else no run context := by
  refine reads (fun run value context => if value then yes run context else no run context) ?_
  intro value
  cases value with
  | true => simpa using first
  | false => simpa using second

end Reads

theorem inOrder_of_andThen {α : Type} (skip : P fun _ => Step.skip)
    (andThen : ∀ first second : Run → Step, P first → P second →
      P fun run => (first run).andThen (second run)) (items : List α) (step : Run → α → Step)
    (each : ∀ item ∈ items, P fun run => step run item) :
    P fun run => Step.inOrder (items.map (step run)) := by
  induction items with
  | nil => exact skip
  | cons item rest ih =>
      have later := ih fun other member => each other (by simp [member])
      exact andThen _ _ (each item (by simp)) later

-- The steps of `E` are seen to their end by every run. Those of `P` may be ended early by a strict
-- context, so that nothing may follow one of them without a look at whether it was.
structure Flow (E P : (Run → Step) → Prop) : Prop where
  skip : P fun _ => Step.skip
  onward : ∀ first second : Run → Step, E first → P second →
    P fun run => (first run).andThen (second run)
  next : ∀ first rest : Run → Step, P first → P rest →
    P fun run => (first run).andThen fun after =>
      if after.stops then .ok after else rest run after
  succeeded : Reads P Context.succeeded

namespace Flow

variable {α : Type} {E : (Run → Step) → Prop}

theorem sequence (flow : Flow E P) (items : List α) (step : Run → α → Step)
    (each : ∀ item ∈ items, P fun run => step run item) :
    P fun run => Step.sequence (items.map (step run)) := by
  induction items with
  | nil => exact flow.skip
  | cons item rest ih =>
      have later := ih fun other member => each other (by simp [member])
      exact flow.next _ _ (each item (by simp)) later

theorem whenSucceeded (flow : Flow E P) (condition yes no : Run → Step)
    (checked : E condition) (first : P yes) (second : P no) :
    P fun run => (condition run).andThen fun after =>
      if after.succeeded then yes run after else no run after :=
  flow.onward condition _ checked (flow.succeeded.branch yes no first second)

theorem whenProceeding (flow : Flow E P) (untilTrue : Bool) (condition yes no : Run → Step)
    (checked : E condition) (first : P yes) (second : P no) :
    P fun run => (condition run).andThen fun after =>
      if Step.proceeds untilTrue after then yes run after else no run after :=
  flow.onward condition _ checked
    ((flow.succeeded.map (· != untilTrue)).branch yes no first second)

theorem rounds (flow : Flow E P) (untilTrue : Bool) (limit : Nat) (condition body : Run → Step)
    (report : P fun _ => Step.update (·.addErrors [Step.loopMessage untilTrue limit]))
    (checked : E condition) (repeated : P body) (left : Nat) :
    P fun run => Step.rounds untilTrue limit (condition run) (body run) left := by
  induction left with
  | zero => exact flow.whenProceeding untilTrue condition _ _ checked report flow.skip
  | succ left ih =>
      exact flow.whenProceeding untilTrue condition _ _ checked
        (flow.next body _ repeated ih) flow.skip

theorem forEach (flow : Flow E P) (name : String) (body : Run → Step)
    (bind : ∀ value, E fun _ => Step.update (·.setVariable name value)) (repeated : P body)
    (items : List String) : P fun run => Step.forEach name (body run) items := by
  induction items with
  | nil => exact flow.skip
  | cons item rest ih =>
      have round := flow.next body _ repeated ih
      exact flow.onward (fun _ => Step.update (·.setVariable name item)) _ (bind item) round

end Flow

structure Control (P : (Run → Step) → Prop) : Prop where
  skip : P fun _ => Step.skip
  andThen : ∀ first second : Run → Step, P first → P second →
    P fun run => (first run).andThen (second run)
  succeeded : Reads P Context.succeeded
  stops : Reads P Context.stops

namespace Control

variable {α : Type}

theorem unlessStopped (control : Control P) (first rest : Run → Step) (here : P first)
    (later : P rest) : P fun run => (first run).andThen fun after =>
      if after.stops then .ok after else rest run after :=
  control.andThen first _ here (control.stops.branch _ rest control.skip later)

theorem flow (control : Control P) : Flow P P where
  skip := control.skip
  onward := control.andThen
  next := control.unlessStopped
  succeeded := control.succeeded

theorem inOrder (control : Control P) (items : List α) (step : Run → α → Step)
    (each : ∀ item ∈ items, P fun run => step run item) :
    P fun run => Step.inOrder (items.map (step run)) :=
  inOrder_of_andThen control.skip control.andThen items step each

theorem inScope (control : Control P) (pushed : P fun _ => Step.update Context.pushScope)
    (popped : P fun _ => Step.leaveScope) (step : Run → Step) (inner : P step) :
    P fun run => Step.inScope (step run) :=
  control.andThen (fun _ => Step.update Context.pushScope) _ pushed
    (control.andThen step _ inner popped)

theorem called (control : Control P) (positional : Reads P Context.positional)
    (arguments : List String) (entered : P fun _ => Step.update (·.enterCall arguments))
    (left : ∀ parameters, P fun _ => Step.update (·.leaveCall parameters)) (body : Run → Step)
    (inner : P body) : P fun run => Step.called arguments (body run) := by
  refine positional (fun run parameters => (Step.update (·.enterCall arguments)).andThen
    ((body run).andThen (Step.update (·.leaveCall parameters)))) fun parameters => ?_
  exact control.andThen _ _ entered (control.andThen body _ inner (left parameters))

end Control

end ShellWalk
