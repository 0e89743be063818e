import ControlFile.Config

/-!
# The shared configuration

Operations that are not given a configuration share one, which is loaded from the environment when
it is first needed and kept until it is replaced. `Settings` is the environment of the process
together with that cell: while the cell is empty each use loads, and a use whose load fails leaves
it empty.
-/

namespace ControlFile

/-- The environment of a process and the configuration it shares, once there is one. -/
structure Settings where
  environment : Environment := fun _ => none
  config? : Option Config := none

namespace Settings

/-- The shared configuration, loaded if there is none yet, and the settings afterwards. -/
def get (s : Settings) : Except Error Config × Settings :=
  match s.config? with
  | some c => (.ok c, s)
  | none => match Config.ofEnvironment? s.environment with
    | .ok c => (.ok c, { s with config? := some c })
    | .error e => (.error e, s)

/-- The settings with another shared configuration, or with none. -/
def put (s : Settings) (config? : Option Config) : Settings := { s with config? }

/-- The settings in another environment. -/
def withEnvironment (s : Settings) (environment : Environment) : Settings :=
  { s with environment }

/-- The given configuration, or else the shared one, and the settings afterwards. -/
def resolve (s : Settings) : Option Config → Except Error Config × Settings
  | some c => (.ok c, s)
  | none => s.get

/-- What `use` makes of the given configuration or else the shared one, or what `fail` makes of the
error, and the settings afterwards. -/
def withConfig {α : Type} (s : Settings) (config? : Option Config) (use : Config → α)
    (fail : Error → α) : α × Settings :=
  match s.resolve config? with
  | (.ok c, s) => (use c, s)
  | (.error e, s) => (fail e, s)

@[simp] theorem resolve_some (s : Settings) (c : Config) : s.resolve (some c) = (.ok c, s) := rfl

@[simp] theorem resolve_none (s : Settings) : s.resolve none = s.get := rfl

end Settings

end ControlFile
