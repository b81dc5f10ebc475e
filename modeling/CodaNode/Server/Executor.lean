/-
`Server/Executor.lean` -- how the executor is found, and whether the consumer can run it.

`_instantiate_factory` asks whether the target has an attribute `run`. A class that defines `run`
has one as well, so that it is returned as it is, and a call of its `run` with the program and
the shots takes the program for `self`. Nor does anybody look at the parameters of `run`.
-/
import CodaNode.Text.Json

set_option autoImplicit false

namespace CodaNode.Server

/-! ## Calls -/

/-- The kinds of parameters of `inspect`. -/
inductive ParameterKind where
  | positional_only
  | positional_or_keyword
  | var_positional
  | keyword_only
  | var_keyword
  deriving DecidableEq, Repr

/-- A parameter of a callable. -/
structure Parameter where
  name : Text
  kind : ParameterKind
  has_default : Bool
  deriving DecidableEq, Repr

/-- An argument without a keyword can be bound to the parameter. -/
def Parameter.positional (p : Parameter) : Bool :=
  p.kind = .positional_only || p.kind = .positional_or_keyword

/-- A call with `n` positional arguments binds: there is a place for each of them, and what they
leave out has a default. -/
def binds (parameters : List Parameter) (n : Nat) : Bool :=
  let positional := parameters.filter Parameter.positional
  (n ≤ positional.length || parameters.any fun p => p.kind = .var_positional) &&
    (positional.drop n).all Parameter.has_default &&
    (parameters.filter fun p => p.kind = .keyword_only).all Parameter.has_default

/-- A parameter that has to be given. -/
def required (name : String) : Parameter := ⟨name.toList, .positional_or_keyword, false⟩

/-! ## The interpreter -/

/-- The exceptions of the interpreter. -/
inductive PyError where
  | executor_error (message : Text)
  | module_not_found
  | value_error
  | attribute_error (name : Text)
  /-- Any other `Exception`. -/
  | other (message : Text)
  /-- A `BaseException` that is none, such as `SystemExit`. -/
  | base (message : Text)
  deriving DecidableEq, Repr

/-- An interpreter with the installed packages, whose objects are any. -/
structure Python (Obj : Type) where
  /-- `packages_distributions()`, unless it cannot be imported. -/
  packages_distributions : Option (List Text)
  /-- Whether `importlib.util.find_spec(name)` is not `None`. -/
  find_spec : Text → Except PyError Bool
  import_module : Text → Except PyError Obj
  /-- `getattr(o, name)`; an `AttributeError` gives `none`. -/
  getattr : Obj → Text → Except PyError (Option Obj)
  /-- `isinstance(o, type)`. -/
  is_class : Obj → Bool
  /-- The parameters of a call, if the object is callable. -/
  parameters : Obj → Option (List Parameter)
  /-- `inspect.signature(o).parameters`. -/
  signature : Obj → Except PyError (List Parameter)
  /-- `o(settings)`, or `o()`. -/
  call : Obj → Bool → Except PyError Obj
  /-- `repr(text)`. -/
  repr : Text → Text

/-- What executes the jobs. -/
inductive Runner (Obj : Type) where
  /-- `NoopExecutor()`. -/
  | noop
  | object (o : Obj)
  deriving DecidableEq, Repr

variable {Obj : Type} (W : Python Obj)

/-! ## Resolution -/

/-- `import_path.partition(":")`: what stands before the separator, whether there is one, and
what stands after it. -/
def partition (path : Text) : Text × Bool × Text :=
  let before := path.takeWhile (· ≠ ':')
  match path.drop before.length with
  | [] => (before, false, [])
  | _ :: after => (before, true, after)

/-- `_load_attr`. -/
def load_attr (import_path : Text) : Except PyError Obj :=
  let (module_name, sep, attr_name) := partition import_path
  if !sep || module_name.isEmpty || attr_name.isEmpty then
    .error (.executor_error
      "CODA_EXECUTOR_FACTORY must look like 'package.module:factory_name'".toList)
  else do
    let module_ ← W.import_module module_name
    match ← W.getattr module_ attr_name with
    | none => .error (.attribute_error attr_name)
    | some target => .ok target

/-- `_instantiate_factory`. -/
def instantiate_factory (import_path : Text) : Except PyError Obj := do
  let target ← load_attr W import_path
  match ← W.getattr target "run".toList with
  | some _ => .ok target
  | none =>
      if (W.parameters target).isNone then
        .error (.executor_error
          ("Executor target ".toList ++ W.repr import_path ++ " is not callable".toList))
      else do
        let parameters ← W.signature target
        let executor ← W.call target (!parameters.isEmpty)
        match ← W.getattr executor "run".toList with
        | none => .error (.executor_error
            ("Executor factory ".toList ++ W.repr import_path ++
              " did not return a runner".toList))
        | some _ => .ok executor

/-- The import path that the package offers, if any. -/
def discovered_factory (pkg : Text) : Except PyError (Option Text) :=
  if '.' ∈ pkg || pkg.head? = some '_' || pkg = "coda_node".toList then .ok none
  else
    let module_name := pkg ++ ".executor_factory".toList
    match W.find_spec module_name with
    | .error .module_not_found => .ok none
    | .error .value_error => .ok none
    | .error e => .error e
    | .ok false => .ok none
    | .ok true =>
        match W.import_module module_name with
        | .error (.base message) => .error (.base message)
        | .error _ => .ok none
        | .ok module_ => do
            let factory ← W.getattr module_ "create_executor".toList
            if factory.any fun o => (W.parameters o).isSome then
              .ok (some (module_name ++ ":create_executor".toList))
            else .ok none

/-- The `for` loop of `_discover_executor_factories`. -/
def discover_loop : List Text → Except PyError (List Text)
  | [] => .ok []
  | pkg :: rest => do
      let factory ← discovered_factory W pkg
      let candidates ← discover_loop rest
      .ok (factory.toList ++ candidates)

/-- `_discover_executor_factories`. -/
def discover_executor_factories : Except PyError (List Text) :=
  discover_loop W (W.packages_distributions.getD [])

/-- `load_executor`, of settings with this `executor_factory`. -/
def load_executor (executor_factory : Text) : Except PyError (Runner Obj) :=
  if executor_factory ≠ [] then (instantiate_factory W executor_factory).map .object
  else do
    match ← discover_executor_factories W with
    | [path] => (instantiate_factory W path).map .object
    | _ => .ok .noop

/-! ## The call of the consumer -/

/-- `o(ir, shots)` binds both arguments. -/
def Takes (o : Obj) : Prop :=
  ∃ parameters, W.parameters o = some parameters ∧ binds parameters 2 = true

/-- `o.run(ir, shots)` binds both arguments, and `o` is no class. -/
def Runs (o : Obj) : Prop :=
  W.is_class o = false ∧ ∃ run, W.getattr o "run".toList = .ok (some run) ∧ Takes W run

/-- The parameters of the bound method `NoopExecutor().run`. -/
def noop_run : List Parameter := [required "ir", required "shots"]

/-- The consumer can call `runner.run(ir, shots)`. -/
def Runner.Executes : Runner Obj → Prop
  | .noop => binds noop_run 2 = true
  | .object o => Runs W o

/-- Whatever `load_executor` returns can execute jobs. -/
def LoadsRunner (executor_factory : Text) : Prop :=
  ∀ runner, load_executor W executor_factory = .ok runner → runner.Executes W

/-- The import path that `load_executor` resolves: the configured one, or else the only one that
is discovered. -/
def Resolved (executor_factory path : Text) : Prop :=
  if executor_factory = [] then discover_executor_factories W = .ok [path]
  else path = executor_factory

/-- An object with a `run` is no class, and its `run` takes two arguments. -/
def Sound (o : Obj) : Prop :=
  ∀ run, W.getattr o "run".toList = .ok (some run) → W.is_class o = false ∧ Takes W run

/-- What the call of the factory returns, with the settings if it has any parameter. -/
def Returns (factory o : Obj) : Prop :=
  (W.parameters factory).isSome = true ∧ ∃ parameters, W.signature factory = .ok parameters ∧
    W.call factory (!parameters.isEmpty) = .ok o

/-- The target is sound, and if it is a factory so is what it returns. -/
def Suitable (target : Obj) : Prop :=
  Sound W target ∧ (W.getattr target "run".toList = .ok none →
    ∀ o, Returns W target o → Sound W o)

section Loading

variable {W} {path : Text} {target o : Obj}

/-- A parameter in front that has to be given takes one argument. -/
theorem binds_self {self : Parameter} {parameters : List Parameter} {n : Nat}
    (hself : self.kind = .positional_or_keyword) :
    binds (self :: parameters) (n + 1) = binds parameters n := by
  simp [binds, Parameter.positional, hself]

/-- The method of an executor takes the program and the shots once it is bound, and not on the
class. -/
theorem binds_method :
    binds noop_run 2 = true ∧ binds (required "self" :: noop_run) 2 = false := by
  rw [binds_self rfl]
  decide

/-- `_instantiate_factory` returns the target that has a `run`, or what the factory returns. -/
theorem instantiate_factory_ok : instantiate_factory W path = .ok o ↔
    ∃ target, load_attr W path = .ok target ∧
      ((∃ run, W.getattr target "run".toList = .ok (some run)) ∧ o = target ∨
        W.getattr target "run".toList = .ok none ∧ Returns W target o ∧
          ∃ run, W.getattr o "run".toList = .ok (some run)) := by
  rw [instantiate_factory, bind_ok]
  refine exists_congr fun target => and_congr_right fun _ => ?_
  rw [bind_ok]
  constructor
  · rintro ⟨found, hfound, hrest⟩
    cases found with
    | some run => exact .inl ⟨⟨run, hfound⟩, (Except.ok.inj hrest).symm⟩
    | none =>
        refine .inr ⟨hfound, ?_⟩
        by_cases hcallable : (W.parameters target).isNone = true
        · simp [hcallable] at hrest
        · simp only [hcallable, Bool.false_eq_true, if_false] at hrest
          obtain ⟨parameters, hsignature, hrest⟩ := bind_ok.1 hrest
          obtain ⟨executor, hcall, hrest⟩ := bind_ok.1 hrest
          obtain ⟨run, hrun, hrest⟩ := bind_ok.1 hrest
          cases run with
          | none => cases hrest
          | some run =>
              cases hrest
              have hsome : (W.parameters target).isSome = true := by
                simpa [Option.isNone_iff_eq_none, Option.isSome_iff_ne_none] using hcallable
              exact ⟨⟨hsome, parameters, hsignature, hcall⟩, run, hrun⟩
  · rintro (⟨⟨run, hrun⟩, rfl⟩ | ⟨hnone, ⟨hsome, parameters, hsignature, hcall⟩, run, hrun⟩)
    · exact ⟨some run, hrun, rfl⟩
    · refine ⟨none, hnone, ?_⟩
      have hcallable : ¬ (W.parameters target).isNone = true := by
        simpa [Option.isNone_iff_eq_none, Option.isSome_iff_ne_none] using hsome
      simp only [hcallable, Bool.false_eq_true, if_false]
      exact bind_ok.2 ⟨parameters, hsignature, bind_ok.2 ⟨o, hcall, bind_ok.2 ⟨some run, hrun, rfl⟩⟩⟩

/-- An imported executor is what `_instantiate_factory` returns. -/
theorem load_executor_object {executor_factory : Text} :
    load_executor W executor_factory = .ok (.object o) ↔
      ∃ path, Resolved W executor_factory path ∧ instantiate_factory W path = .ok o := by
  have hmap (path : Text) : (instantiate_factory W path).map Runner.object = .ok (.object o) ↔
      instantiate_factory W path = .ok o := by
    cases instantiate_factory W path <;> simp [Except.map]
  unfold load_executor Resolved
  by_cases hempty : executor_factory = []
  · rw [if_neg (not_not_intro hempty), bind_ok]
    simp only [if_pos hempty]
    constructor
    · rintro ⟨discovered, hdiscover, hrest⟩
      match discovered, hdiscover, hrest with
      | [path], hdiscover, hrest => exact ⟨path, hdiscover, (hmap path).1 hrest⟩
    · rintro ⟨path, hdiscover, hload⟩
      exact ⟨[path], hdiscover, (hmap path).2 hload⟩
  · rw [if_pos hempty]
    simp only [if_neg hempty, exists_eq_left]
    exact hmap executor_factory

theorem sound_iff (h : ∃ run, W.getattr o "run".toList = .ok (some run)) :
    Runs W o ↔ Sound W o := by
  obtain ⟨run, hrun⟩ := h
  constructor
  · rintro ⟨hclass, run', hrun', htakes⟩ other hother
    rw [hrun'] at hother
    cases hother
    exact ⟨hclass, htakes⟩
  · intro hsound
    obtain ⟨hclass, htakes⟩ := hsound run hrun
    exact ⟨hclass, run, hrun, htakes⟩

/-- What `_instantiate_factory` returns runs exactly if the target is suitable. -/
theorem instantiate_factory_runs_iff :
    (∀ o, instantiate_factory W path = .ok o → Runs W o) ↔
      ∀ target, load_attr W path = .ok target → Suitable W target := by
  constructor
  · intro h target hload
    refine ⟨fun run hrun => ?_, fun hnone o hreturns run hrun => ?_⟩
    · have hruns := h target (instantiate_factory_ok.2 ⟨target, hload, .inl ⟨⟨run, hrun⟩, rfl⟩⟩)
      exact (sound_iff ⟨run, hrun⟩).1 hruns run hrun
    · have hruns := h o (instantiate_factory_ok.2
        ⟨target, hload, .inr ⟨hnone, hreturns, run, hrun⟩⟩)
      exact (sound_iff ⟨run, hrun⟩).1 hruns run hrun
  · intro h o ho
    obtain ⟨target, hload, ⟨hrun, rfl⟩ | ⟨hnone, hreturns, hrun⟩⟩ := instantiate_factory_ok.1 ho
    · exact (sound_iff hrun).2 (h o hload).1
    · exact (sound_iff hrun).2 ((h target hload).2 hnone o hreturns)

end Loading

/-- **Whatever `load_executor` returns can execute jobs** exactly if the target of the path that
it resolves is suitable: neither it nor what it returns as a factory is a class with a `run`, or
an object whose `run` does not take the program and the shots. -/
theorem load_executor_runs_iff (W : Python Obj) (executor_factory : Text) :
    LoadsRunner W executor_factory ↔ ∀ path, Resolved W executor_factory path →
      ∀ target, load_attr W path = .ok target → Suitable W target := by
  have hpaths : LoadsRunner W executor_factory ↔ ∀ path, Resolved W executor_factory path →
      ∀ o, instantiate_factory W path = .ok o → Runs W o := by
    constructor
    · intro h path hpath o ho
      exact h (.object o) (load_executor_object.2 ⟨path, hpath, ho⟩)
    · intro h runner hrunner
      cases runner with
      | noop => exact binds_method.1
      | object o =>
          obtain ⟨path, hpath, ho⟩ := load_executor_object.1 hrunner
          exact h path hpath o ho
  rw [hpaths]
  exact forall_congr' fun path => imp_congr_right fun _ => instantiate_factory_runs_iff

/-! ## A class -/

/-- The objects of a module with a class whose instances execute jobs. -/
inductive Thing where
  | my_project
  | MyExecutor
  | instance_
  /-- `MyExecutor.run`. -/
  | function
  /-- `MyExecutor().run`. -/
  | method
  deriving DecidableEq, Repr

/-- The parameters of a call of the object. -/
def Thing.parameters : Thing → Option (List Parameter)
  | .MyExecutor => some []
  | .function => some (required "self" :: noop_run)
  | .method => some noop_run
  | _ => none

/-- The interpreter, where `my_project` is the only module. -/
def my_interpreter : Python Thing where
  packages_distributions := some []
  find_spec := fun _ => .error .module_not_found
  import_module := fun name =>
    if name = "my_project".toList then .ok .my_project else .error .module_not_found
  getattr := fun o name => .ok <|
    match o with
    | .my_project => if name = "MyExecutor".toList then some .MyExecutor else none
    | .MyExecutor => if name = "run".toList then some .function else none
    | .instance_ => if name = "run".toList then some .method else none
    | _ => none
  is_class := fun o => o = .MyExecutor
  parameters := Thing.parameters
  signature := fun o =>
    match o.parameters with
    | none => .error (.other "is not a callable object".toList)
    | some parameters => .ok parameters
  call := fun o with_settings =>
    if o = .MyExecutor ∧ with_settings = false then .ok .instance_
    else .error (.other "is not callable".toList)
  repr := fun text => '\'' :: text ++ ['\'']

/-- `CODA_EXECUTOR_FACTORY="my_project:MyExecutor"` gives the class, not an instance of it. -/
theorem class_loaded : ¬ ∀ (Obj : Type) (W : Python Obj) (executor_factory : Text),
    LoadsRunner W executor_factory := by
  intro hclaim
  obtain ⟨hclass, -⟩ := hclaim Thing my_interpreter "my_project:MyExecutor".toList
    (.object .MyExecutor) rfl
  exact absurd hclass (by decide)

end CodaNode.Server
