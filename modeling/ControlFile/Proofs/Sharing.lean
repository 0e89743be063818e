import ControlFile.Reader
import Mathlib.Data.List.Induction
import Mathlib.Logic.Function.Basic

/-!
# The shared configuration over a run

The configuration of a process is a cell. A run of operations changes the environment, asks for the
configuration, reads texts without a configuration of their own, and puts another configuration into the cell
or none, in any order (`Settings.Operation`). What an operation finds is told here from the operations before
it alone (`Settings.Provides`), without any cell:

* the configuration that was put there last;
* or else, where nothing was ever put or the last thing put was none, the one that the first use since then
  could load, from the environment of the moment of that use;
* or else, where no use since then could load, what the environment of this moment gives, be it a
  configuration or an error.

**The cell provides exactly that** (`Settings.answers_provides`). Nothing else has a say, so that a change of
the environment is without effect once a configuration is loaded, and a load that fails leaves nothing behind.
-/

namespace ControlFile.Settings

/-! ### Runs -/

/-- What is done to the settings of a process. -/
inductive Operation where
  /-- A setting gets another text in the environment, or is taken out of it. -/
  | assign (setting : Setting) (value? : Option Text)
  /-- The shared configuration is asked for. -/
  | get
  /-- The shared configuration is replaced, or dropped. -/
  | put (config? : Option Config)
  /-- A text is read without a configuration of its own. -/
  | read (requested : FieldSet) (text : Text)

/-- What an operation returns. -/
inductive Answer where
  | done
  | config (result : Except Error Config)
  | trace (trace : Trace)

namespace Operation

/-- The operation needs the shared configuration. -/
def IsUse : Operation → Prop
  | .get | .read .. => True
  | .assign .. | .put _ => False

/-- The operation decides what the cell holds. -/
def IsPut : Operation → Prop
  | .put _ => True
  | .assign .. | .get | .read .. => False

/-- The environment after an operation. -/
def environment (env : Environment) : Operation → Environment
  | .assign setting value? => Function.update env setting value?
  | .get | .put _ | .read .. => env

end Operation

/-- What an operation returns, and the settings afterwards. -/
def perform (s : Settings) : Operation → Answer × Settings
  | .assign setting value? => (.done, s.withEnvironment (Function.update s.environment setting value?))
  | .get => (.config s.get.1, s.get.2)
  | .put config? => (.done, s.put config?)
  | .read requested text =>
    (.trace (s.readText none requested text).1, (s.readText none requested text).2)

/-- The settings after some operations. -/
def after (s : Settings) (ops : List Operation) : Settings := ops.foldl (fun s op => (s.perform op).2) s

/-- What the operations return, in order. -/
def answers (s : Settings) : List Operation → List Answer
  | [] => []
  | op :: ops => (s.perform op).1 :: (s.perform op).2.answers ops

/-- The settings of a process that starts in this environment. -/
def start (env : Environment) : Settings := { environment := env }

variable {s : Settings} {env : Environment} {ops : List Operation} {op : Operation} {c : Config}

theorem after_append (s : Settings) (ops ops' : List Operation) :
    s.after (ops ++ ops') = (s.after ops).after ops' := List.foldl_append

/-- The last operation meets the settings that the others leave. -/
theorem after_concat (s : Settings) (ops : List Operation) (op : Operation) :
    s.after (ops ++ [op]) = ((s.after ops).perform op).2 := by
  rw [after_append]
  rfl

/-- The answer of an operation depends on the operations before it through the settings they leave. -/
theorem getElem?_answers (s : Settings) (before : List Operation) (op : Operation) (rest : List Operation) :
    (s.answers (before ++ op :: rest))[before.length]? = some ((s.after before).perform op).1 := by
  induction before generalizing s with
  | nil => rfl
  | cons first before ih => exact ih (s.perform first).2

/-! ### One operation -/

theorem get_of_eq_some (h : s.config? = some c) : s.get = (.ok c, s) := by
  rw [get, h]

/-- With an empty cell the environment is asked. -/
theorem get_fst_of_eq_none (h : s.config? = none) : s.get.1 = Config.ofEnvironment? s.environment := by
  rw [get, h]
  cases Config.ofEnvironment? s.environment <;> rfl

/-- Asking leaves in the cell what was returned, and the cell empty after an error. -/
theorem get_snd (s : Settings) : s.get.2 = { s with config? := s.get.1.toOption } := by
  cases h : s.config? with
  | some c =>
    rw [get_of_eq_some h]
    show s = { s with config? := some c }
    rw [← h]
  | none =>
    rw [get, h]
    cases Config.ofEnvironment? s.environment with
    | ok c => rfl
    | error cause =>
      show s = { s with config? := none }
      rw [← h]

/-- A text without a configuration of its own is read with the shared one, or not at all. -/
theorem readText_none (s : Settings) (requested : FieldSet) (text : Text) :
    s.readText none requested text =
      (match s.get.1 with
        | .ok c => ControlFile.readText requested c text
        | .error cause => .ofError cause, s.get.2) := by
  rw [readText, withConfig, resolve_none]
  -- Either the configuration is there, or its error is the whole trace.
  rcases s.get with ⟨_ | _, _⟩ <;> rfl

/-- What an operation leaves in the cell. -/
theorem config?_perform (s : Settings) (op : Operation) :
    (s.perform op).2.config? = match op with
      | .assign .. => s.config?
      | .put config? => config?
      | .get | .read .. => s.get.1.toOption := by
  cases op with
  | assign setting value? => rfl
  | put config? => rfl
  | get => rw [perform, get_snd]
  | read requested text => rw [perform, readText_none, get_snd]

/-- A use leaves in the cell what it found. -/
theorem config?_perform_of_isUse (h : op.IsUse) (s : Settings) :
    (s.perform op).2.config? = s.get.1.toOption := by
  rw [config?_perform]
  cases op with
  | assign | put => exact h.elim
  | get | read => rfl

theorem environment_perform (s : Settings) (op : Operation) :
    (s.perform op).2.environment = op.environment s.environment := by
  cases op with
  | assign setting value? => rfl
  | put config? => rfl
  | get => rw [perform, get_snd]; rfl
  | read requested text => rw [perform, readText_none, get_snd]; rfl

/-! ### What a run provides -/

/-- The environment after some operations. -/
def environmentAfter (env : Environment) (ops : List Operation) : Environment :=
  ops.foldl Operation.environment env

/-- What a use loads after some operations, if it loads. -/
def loadAfter (env : Environment) (ops : List Operation) : Except Error Config :=
  Config.ofEnvironment? (environmentAfter env ops)

/-- The operations up to a moment at which the cell is empty by itself: the start of the process, or just after
none was put there. -/
def IsFresh (ops : List Operation) : Prop := ops = [] ∨ ∃ before, ops = before ++ [.put none]

/-- Of the operations `ops`, done after `first`, none puts anything into the cell and no use can load. -/
structure LoadsNothing (env : Environment) (first ops : List Operation) : Prop where
  notPut : ∀ op ∈ ops, ¬op.IsPut
  fails : ∀ before op, before ++ [op] <+: ops → op.IsUse →
    ∃ cause, loadAfter env (first ++ before) = .error cause

/-- What a use finds after some operations in a process that starts in the environment `env`. -/
inductive Provides (env : Environment) : List Operation → Except Error Config → Prop where
  /-- The configuration that was put there last. -/
  | put {before rest : List Operation} {c : Config} (hrest : ∀ op ∈ rest, ¬op.IsPut) :
    Provides env (before ++ .put (some c) :: rest) (.ok c)
  /-- What the first use could load that could load anything, in the environment of its moment. -/
  | loaded {first before rest : List Operation} {use : Operation} {c : Config} (hfirst : IsFresh first)
    (hbefore : LoadsNothing env first before) (huse : use.IsUse)
    (hload : loadAfter env (first ++ before) = .ok c) (hrest : ∀ op ∈ rest, ¬op.IsPut) :
    Provides env (first ++ before ++ use :: rest) (.ok c)
  /-- What the environment of this moment gives, when no use could load. -/
  | unloaded {first rest : List Operation} (hfirst : IsFresh first) (hrest : LoadsNothing env first rest) :
    Provides env (first ++ rest) (loadAfter env (first ++ rest))

theorem environment_after (s : Settings) (ops : List Operation) :
    (s.after ops).environment = environmentAfter s.environment ops := by
  induction ops generalizing s with
  | nil => rfl
  | cons op ops ih => exact (ih (s.perform op).2).trans (by rw [environment_perform]; rfl)

/-- A use of an empty cell loads. -/
theorem get_fst_after_of_eq_none (h : ((start env).after ops).config? = none) :
    ((start env).after ops).get.1 = loadAfter env ops := by
  rw [get_fst_of_eq_none h, environment_after]
  rfl

/-- What is in the cell stays there until something is put there. -/
theorem config?_after_of_eq_some (h : s.config? = some c) (hops : ∀ op ∈ ops, ¬op.IsPut) :
    (s.after ops).config? = some c := by
  induction ops generalizing s with
  | nil => exact h
  | cons op ops ih =>
    rw [List.forall_mem_cons] at hops
    refine ih ?_ hops.2
    rw [config?_perform]
    cases op with
    | assign setting value? => exact h
    | put config? => exact absurd trivial hops.1
    | get | read => simp [get_of_eq_some h, Except.toOption]

theorem config?_after_of_isFresh (h : IsFresh ops) : ((start env).after ops).config? = none := by
  rcases h with rfl | ⟨before, rfl⟩
  · rfl
  · rw [after_concat]
    rfl

/-- An operation more: it puts nothing into the cell, and it loads nothing if it is a use. -/
theorem loadsNothing_concat {first : List Operation} :
    LoadsNothing env first (ops ++ [op]) ↔ LoadsNothing env first ops ∧ ¬op.IsPut ∧
      (op.IsUse → ∃ cause, loadAfter env (first ++ ops) = .error cause) := by
  constructor
  · rintro ⟨hput, hfails⟩
    refine ⟨⟨fun op' hop' => hput op' (by simp [hop']), fun before op' hpre huse => ?_⟩,
      hput op (by simp), fun huse => hfails ops op (List.prefix_refl _) huse⟩
    exact hfails before op' (hpre.trans (List.prefix_append _ _)) huse
  · rintro ⟨⟨hput, hfails⟩, hop, hload⟩
    refine ⟨by simpa [or_imp, forall_and] using ⟨hput, hop⟩, fun before op' hpre huse => ?_⟩
    rcases List.prefix_concat_iff.1 hpre with heq | hpre
    · obtain ⟨rfl, rfl⟩ : before = ops ∧ op' = op := by simpa using heq
      exact hload huse
    · exact hfails before op' hpre huse

/-- While nothing is put there and no use can load, the cell stays empty. -/
theorem LoadsNothing.config?_after {first : List Operation} (hfirst : IsFresh first)
    (h : LoadsNothing env first ops) : ((start env).after (first ++ ops)).config? = none := by
  induction ops using List.reverseRecOn with
  | nil => simpa using config?_after_of_isFresh hfirst
  | append_singleton ops op ih =>
    obtain ⟨hops, hput, hload⟩ := loadsNothing_concat.1 h
    rw [← List.append_assoc, after_concat]
    by_cases huse : op.IsUse
    · -- The use finds the cell empty, and what it tries to load is an error.
      obtain ⟨cause, hcause⟩ := hload huse
      rw [config?_perform_of_isUse huse, get_fst_after_of_eq_none (ih hops), hcause]
      rfl
    · cases op with
      | assign setting value? => exact ih hops
      | put config? => exact absurd trivial hput
      | get | read => exact absurd trivial huse

/-- What the run provides is what a use finds. -/
theorem Provides.get_fst {r : Except Error Config} (h : Provides env ops r) :
    ((start env).after ops).get.1 = r := by
  -- What `op` left in the cell is still there.
  have hkept : ∀ {before rest : List Operation} {op : Operation} {c : Config},
      ((start env).after (before ++ [op])).config? = some c → (∀ op ∈ rest, ¬op.IsPut) →
      ((start env).after (before ++ op :: rest)).get.1 = .ok c := by
    intro before rest op c hcell hrest
    rw [List.append_cons, after_append, get_of_eq_some (config?_after_of_eq_some hcell hrest)]
  cases h with
  | put hrest => exact hkept (by rw [after_concat]; rfl) hrest
  | @loaded first before rest use c hfirst hbefore huse hload hrest =>
    refine hkept ?_ hrest
    rw [after_concat, config?_perform_of_isUse huse,
      get_fst_after_of_eq_none (hbefore.config?_after hfirst), hload]
    rfl
  | unloaded hfirst hrest => exact get_fst_after_of_eq_none (hrest.config?_after hfirst)

/-- An operation that puts nothing into the cell leaves there what there was, unless it is the first use that
can load. -/
theorem Provides.exists_concat_of_notPut {r : Except Error Config} (h : Provides env ops r)
    (hop : ¬op.IsPut) : ∃ r', Provides env (ops ++ [op]) r' := by
  have hconcat : ∀ {rest : List Operation},
      (∀ op ∈ rest, ¬op.IsPut) → ∀ op' ∈ rest ++ [op], ¬op'.IsPut := by
    intro rest hrest
    simpa [or_imp, forall_and] using ⟨hrest, hop⟩
  cases h with
  | @put before rest c hrest =>
    -- The operation is one more of those that came after the last put.
    have hkept : Provides env (before ++ .put (some c) :: (rest ++ [op])) (.ok c) := .put (hconcat hrest)
    exact ⟨_, by simpa using hkept⟩
  | @loaded first before rest use c hfirst hbefore huse hload hrest =>
    have hkept : Provides env (first ++ before ++ use :: (rest ++ [op])) (.ok c) :=
      .loaded hfirst hbefore huse hload (hconcat hrest)
    exact ⟨_, by simpa using hkept⟩
  | @unloaded first rest hfirst hrest =>
    -- The cell was empty so far, and only a use that can load changes this.
    by_cases hloads : op.IsUse ∧ ∃ c, loadAfter env (first ++ rest) = .ok c
    · obtain ⟨huse, c, hload⟩ := hloads
      exact ⟨_, .loaded hfirst hrest huse hload (by simp)⟩
    · have hfails : op.IsUse → ∃ cause, loadAfter env (first ++ rest) = .error cause := by
        intro huse
        cases hload : loadAfter env (first ++ rest) with
        | ok c => exact absurd ⟨huse, c, hload⟩ hloads
        | error cause => exact ⟨cause, rfl⟩
      -- The operation is no use, or it is one that loads nothing. So it joins those that leave the cell
      -- empty.
      have hempty := Provides.unloaded hfirst (loadsNothing_concat.2 ⟨hrest, hop, hfails⟩)
      rw [← List.append_assoc] at hempty
      exact ⟨_, hempty⟩

/-- Whatever was done before, a use finds something. The induction adds operations at the end, where the last
thing put is looked for. -/
theorem exists_provides (env : Environment) (ops : List Operation) : ∃ r, Provides env ops r := by
  induction ops using List.reverseRecOn with
  | nil => exact ⟨_, .unloaded (.inl rfl) ⟨by simp, by simp⟩⟩
  | append_singleton ops op ih =>
    obtain ⟨r, hr⟩ := ih
    cases op with
    | assign | get | read => exact hr.exists_concat_of_notPut id
    | put config? =>
      cases config? with
      | some c => exact ⟨_, .put (by simp)⟩
      | none =>
        have hrest : LoadsNothing env (ops ++ [.put none]) [] := ⟨by simp, by simp⟩
        exact ⟨_, by simpa using Provides.unloaded (.inr ⟨ops, rfl⟩) hrest⟩

/-- **A run provides one result**, which is the one that a use finds in the cell. -/
theorem provides_iff {r : Except Error Config} :
    Provides env ops r ↔ ((start env).after ops).get.1 = r := by
  constructor
  · exact Provides.get_fst
  · rintro rfl
    obtain ⟨r, hr⟩ := exists_provides env ops
    rwa [hr.get_fst]

/-- **The shared configuration is what the run provides.** In a process that starts in the environment `env`,
exactly one result is provided after the operations `before`. It is what asking for the configuration returns
there, and a text is read there with this configuration, or not at all if the result is an error. A use leaves
the configuration in the cell, and leaves the cell empty if there is none. -/
theorem answers_provides (env : Environment) (before rest : List Operation) :
    ∃ r, (∀ r', Provides env before r' ↔ r' = r) ∧
      ((start env).answers (before ++ .get :: rest))[before.length]? = some (.config r) ∧
      (∀ requested text,
        ((start env).answers (before ++ .read requested text :: rest))[before.length]? =
          some (.trace (match r with
            | .ok c => ControlFile.readText requested c text
            | .error cause => .ofError cause))) ∧
      ∀ use : Operation, use.IsUse → ((start env).after (before ++ [use])).config? = r.toOption := by
  refine ⟨((start env).after before).get.1, fun r' => by rw [provides_iff, eq_comm], ?_, ?_, ?_⟩
  · rw [getElem?_answers]
    rfl
  · intro requested text
    rw [getElem?_answers, perform, readText_none]
  · intro use huse
    rw [after_concat, config?_perform_of_isUse huse]

/-- Two loads that fail, one after the other and for other reasons, then a load, a change of the environment
that comes too late, and another configuration; when that is dropped, the changed environment is loaded, in
vain. -/
theorem answers_provides_failed_load :
    let env : Environment := fun s => if s = .lineLimit then some ['0'] else none
    let before : List Operation := [.get, .assign .lineLimit (some ['x']), .read .full [],
      .assign .lineLimit none, .assign .forcedFields (some "Depends".toList), .get,
      .assign .forcedFields (some "Bogus".toList)]
    let dropped : List Operation := before ++ [.put (some .standard), .put none]
    let cause : Error := .unknownField "Bogus".toList
    (∃ c, Provides env before (.ok c) ∧ c.forced = .single .depends ∧
      ((start env).answers (before ++ .read .full [] :: dropped))[7]? =
        some (.trace (ControlFile.readText .full c []))) ∧
      Provides env dropped (.error cause) ∧
      ((start env).answers (dropped ++ [.get]))[9]? = some (.config (.error cause)) ∧
      ((start env).after (dropped ++ [.get])).config? = none := by
  intro env before dropped cause
  have hload : ((start env).after before).get.1.toOption.any (·.forced = .single .depends) = true := by
    decide +kernel
  -- Nothing is done after the last configuration was dropped, so the changed environment is asked.
  have hnothing : LoadsNothing env dropped [] := ⟨by simp, by simp⟩
  have hfresh : IsFresh dropped := .inr ⟨before ++ [.put (some .standard)], rfl⟩
  have hfailed : Provides env dropped (.error cause) := @Provides.unloaded env dropped [] hfresh hnothing
  refine ⟨?_, hfailed, ?_⟩
  · obtain ⟨r, hr, -, hread, -⟩ := answers_provides env before dropped
    have hprovided := (hr r).2 rfl
    rw [provides_iff.1 hprovided] at hload
    cases r with
    | error cause => cases hload
    | ok c => exact ⟨c, hprovided, of_decide_eq_true hload, hread .full []⟩
  · obtain ⟨r, hr, hget, -, huse⟩ := answers_provides env dropped []
    obtain rfl := (hr _).1 hfailed
    exact ⟨hget, huse .get trivial⟩

end ControlFile.Settings
