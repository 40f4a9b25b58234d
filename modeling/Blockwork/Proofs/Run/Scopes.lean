import Mathlib
import Blockwork.Proofs.Run.Acting
import Blockwork.Proofs.Script.Trees

/-!
# What a run does to the variables

However a statement ends, the scopes that were there before it are there afterwards, with the same
variables in each; only a `let` adds its own one to the innermost scope. And of these variables only
those have other values that the statement assigns to by name, each in the scope that an assignment
from outside the statement would reach (`execution_frame`).

The relation between the variables before and afterwards is `Environment.Frame`. It is reflexive and
transitive, it holds across a declaration and across an assignment, and a frame within a scope of
its own is one without (`Frame.leave`). An action is `Confined` if it stays in a frame from every
machine, and all constructs of actions keep this, so a statement does because its parts do. What is
declared in a body is declared in the scope of the body and goes with it.
-/

namespace Blockwork.Script

/-! ### The names in a statement -/

/-- The variable that a simple statement gives another value. -/
def Simple.assigned : Simple → List String
  | .assign name _ _ _ => [name]
  | .increment name _ => [name]
  | _ => []

/-- The variable that a simple statement declares. -/
def Simple.declared : Simple → List String
  | .declare name _ _ => [name]
  | _ => []

mutual

/-- The variables that are assigned or incremented in a statement. -/
def Stmt.assigned : Stmt → List String
  | .simple s => s.assigned
  | .ifThen _ body _ => Stmt.assignedAll body
  | .ifElse _ body otherwise _ => Stmt.assignedAll body ++ Stmt.assignedAll otherwise
  | .while _ body _ => Stmt.assignedAll body
  | .for first _ update body _ =>
    first.toList.flatMap Simple.assigned ++
      (update.toList.flatMap Simple.assigned ++ Stmt.assignedAll body)
  | .break _ => []
  | .block body _ => Stmt.assignedAll body

/-- The variables that are assigned or incremented in statements. -/
def Stmt.assignedAll : List Stmt → List String
  | [] => []
  | s :: ss => s.assigned ++ Stmt.assignedAll ss

end

/-- The variable that a statement declares where it stands, which only a `let` does. -/
def Stmt.declared : Stmt → List String
  | .simple s => s.declared
  | _ => []

end Blockwork.Script

namespace Blockwork.Run

open Script Blockwork.Run.Action

variable {σ α β : Type}

/-! ### Variables by scope -/

theorem Scope.get?_cons (n : String) (v : Value) (rest : Scope) (name : String) :
    Scope.get? ((n, v) :: rest) name = if name = n then some v else Scope.get? rest name := by
  unfold get?
  rw [List.lookup_cons]
  by_cases h : name = n
  · rw [if_pos h, beq_iff_eq.mpr h]
  · rw [if_neg h, beq_false_of_ne h]

theorem Scope.get?_put (scope : Scope) (name other : String) (value : Value) :
    (scope.put name value).get? other = if other = name then some value else scope.get? other := by
  induction scope with
  | nil => exact get?_cons name value [] other
  | cons entry rest ih =>
    obtain ⟨n, v⟩ := entry
    rw [put]
    split
    · next hn =>
      subst hn
      rw [get?_cons, get?_cons]
      split <;> rfl
    · next hn =>
      rw [get?_cons, get?_cons, ih]
      by_cases h : other = n
      · -- the name is put behind this entry, and only there
        have hne : other ≠ name := fun ho => hn (h.symm.trans ho)
        rw [if_pos h, if_neg hne, if_pos h]
      · rw [if_neg h, if_neg h]

/-- The value of a variable in the scope of this number, where the first is the innermost. -/
def valueAt? (scopes : List Scope) (i : Nat) (name : String) : Option Value :=
  (scopes[i]?).bind (·.get? name)

theorem valueAt?_cons_zero (scope : Scope) (scopes : List Scope) (name : String) :
    valueAt? (scope :: scopes) 0 name = scope.get? name := rfl

theorem valueAt?_cons_succ (scope : Scope) (scopes : List Scope) (i : Nat) (name : String) :
    valueAt? (scope :: scopes) (i + 1) name = valueAt? scopes i name := rfl

/-- The scope of this number is the one that reading and assigning the variable reach: it declares
the variable, and no scope further in does. -/
structure Binds (scopes : List Scope) (i : Nat) (name : String) : Prop where
  declares : (valueAt? scopes i name).isSome
  innermost : ∀ j < i, valueAt? scopes j name = none

namespace Environment

/-- **Assigning** changes the variable in the scope that binds it, and nothing else. -/
theorem assignIn?_some {scopes scopes' : List Scope} {name : String} {value : Value}
    (h : assignIn? scopes name value = some scopes') :
    scopes'.length = scopes.length ∧ ∃ i, Binds scopes i name ∧ ∀ j other,
      valueAt? scopes' j other =
        if j = i ∧ other = name then some value else valueAt? scopes j other := by
  induction scopes generalizing scopes' with
  | nil => cases h
  | cons scope rest ih =>
    rw [assignIn?] at h
    -- the innermost scope is asked first; the others are asked only if it does not have the name
    split at h
    · next hdeclares =>
      cases h
      refine ⟨rfl, 0, ⟨hdeclares, fun j hj => absurd hj (Nat.not_lt_zero j)⟩, fun j other => ?_⟩
      cases j with
      | zero => simp [valueAt?_cons_zero, Scope.get?_put]
      | succ j => simp [valueAt?_cons_succ]
    · next hdeclares =>
      obtain ⟨rest', hrest, rfl⟩ := Option.map_eq_some_iff.mp h
      obtain ⟨hlength, i, hbinds, hvalues⟩ := ih hrest
      refine ⟨congrArg (· + 1) hlength, i + 1, ⟨hbinds.declares, fun j hj => ?_⟩,
        fun j other => ?_⟩
      · cases j with
        | zero => exact Option.not_isSome_iff_eq_none.mp hdeclares
        | succ j => exact hbinds.innermost j (Nat.lt_of_succ_lt_succ hj)
      · cases j with
        | zero => simp [valueAt?_cons_zero]
        | succ j => simp [valueAt?_cons_succ, hvalues]

/-- Assigning in inner and outer scopes: in the outer ones if no inner one has the variable. -/
theorem assignIn?_append (inner outer : List Scope) (name : String) (value : Value) :
    assignIn? (inner ++ outer) name value =
      ((assignIn? inner name value).map (· ++ outer)).or
        ((assignIn? outer name value).map (inner ++ ·)) := by
  induction inner with
  | nil =>
    rw [List.nil_append, assignIn?]
    exact Option.map_id'.symm
  | cons scope rest ih =>
    rw [List.cons_append, assignIn?, assignIn?]
    split
    · rfl
    · rw [ih]
      cases assignIn? rest name value with
      | some rest' => rfl
      | none => cases assignIn? outer name value <;> rfl

/-- Assigning in an environment is assigning in its scopes. -/
theorem assignIn?_of_assign? {env env' : Environment} {name : String} {value : Value}
    (h : env.assign? name value = some env') :
    assignIn? env.scopes name value = some env'.scopes := by
  unfold scopes
  rw [assignIn?_append]
  unfold assign? at h
  cases hinner : assignIn? env.inner name value with
  | some inner' =>
    rw [hinner] at h
    cases h
    rfl
  | none =>
    -- no inner scope has the variable, so it is up to the global one
    rw [hinner] at h
    dsimp only at h
    split at h
    · next hglobal =>
      cases h
      rw [Option.map_none, Option.none_or, assignIn?, if_pos hglobal]
      rfl
    · cases h

/-- **Declaring** changes the variable in the innermost scope, and nothing else. -/
theorem valueAt?_declare (env : Environment) (name : String) (value : Value) (i : Nat)
    (other : String) :
    valueAt? (env.declare name value).scopes i other =
      if i = 0 ∧ other = name then some value else valueAt? env.scopes i other := by
  obtain ⟨inner, global⟩ := env
  cases inner with
  | nil => cases i <;> simp [declare, scopes, valueAt?, Scope.get?_put]
  | cons scope rest => cases i <;> simp [declare, scopes, valueAt?, Scope.get?_put]

theorem depth_eq (env : Environment) : env.depth = env.scopes.length := by
  simp [depth, scopes]

/-! ### Frames -/

/-- **What a part of a run leaves of the variables**, where `assigned` are the names it assigns to
and `declared` those that it declares where it stands. -/
structure Frame (assigned declared : List String) (env env' : Environment) : Prop where
  /-- There are as many scopes as before. -/
  depth : env'.depth = env.depth
  /-- No variable is gone. -/
  kept : ∀ i name, (valueAt? env.scopes i name).isSome → (valueAt? env'.scopes i name).isSome
  /-- There is no other variable than what was declared in the innermost scope. -/
  added : ∀ i name, (valueAt? env'.scopes i name).isSome →
    (valueAt? env.scopes i name).isSome ∨ i = 0 ∧ name ∈ declared
  /-- Only what was assigned, where that is bound, or declared may have another value. -/
  same : ∀ i name, valueAt? env'.scopes i name = valueAt? env.scopes i name ∨
    (Binds env.scopes i name ∧ name ∈ assigned) ∨ i = 0 ∧ name ∈ declared

namespace Frame

variable {assigned declared assigned' declared' : List String} {env env' env'' : Environment}

theorem refl (assigned declared : List String) (env : Environment) :
    Frame assigned declared env env :=
  ⟨rfl, fun _ _ h => h, fun _ _ h => Or.inl h, fun _ _ => Or.inl rfl⟩

/-- A variable that is bound after the first part was bound before, or declared by it. -/
theorem binds_before (h : Frame assigned declared env env') {i : Nat} {name : String}
    (hbinds : Binds env'.scopes i name) :
    Binds env.scopes i name ∨ i = 0 ∧ name ∈ declared := by
  refine (h.added i name hbinds.declares).imp_left fun hdeclares => ⟨hdeclares, fun j hj => ?_⟩
  have hnone := hbinds.innermost j hj
  by_contra hsome
  have := h.kept j name (Option.isSome_iff_ne_none.mpr hsome)
  rw [hnone] at this
  cases this

theorem trans (h : Frame assigned declared env env') (h' : Frame assigned declared env' env'') :
    Frame assigned declared env env'' where
  depth := h'.depth.trans h.depth
  kept i name hsome := h'.kept i name (h.kept i name hsome)
  added i name hsome := by
    rcases h'.added i name hsome with hsome | hdeclared
    · exact h.added i name hsome
    · exact Or.inr hdeclared
  same i name := by
    rcases h'.same i name with hsame | ⟨hbinds, hassigned⟩ | hdeclared
    · rw [hsame]
      exact h.same i name
    -- what binds the variable now did so before, unless the first part declared it
    · exact Or.inr ((h.binds_before hbinds).imp_left (⟨·, hassigned⟩))
    · exact Or.inr (Or.inr hdeclared)

theorem mono (h : Frame assigned declared env env') (ha : assigned ⊆ assigned')
    (hd : declared ⊆ declared') : Frame assigned' declared' env env' where
  depth := h.depth
  kept := h.kept
  added i name hsome := (h.added i name hsome).imp_right (And.imp_right (@hd name))
  same i name := (h.same i name).imp_right
    (Or.imp (And.imp_right (@ha name)) (And.imp_right (@hd name)))

theorem declare (env : Environment) (name : String) (value : Value) :
    Frame [] [name] env (env.declare name value) where
  depth := by
    obtain ⟨_ | _, _⟩ := env <;> rfl
  kept i other hsome := by
    rw [valueAt?_declare]
    split
    · rfl
    · exact hsome
  added i other hsome := by
    rw [valueAt?_declare] at hsome
    split at hsome
    · next h => exact Or.inr ⟨h.1, List.mem_singleton.mpr h.2⟩
    · exact Or.inl hsome
  same i other := by
    rw [valueAt?_declare]
    split
    · next h => exact Or.inr (Or.inr ⟨h.1, List.mem_singleton.mpr h.2⟩)
    · exact Or.inl rfl

theorem assign {name : String} {value : Value} (h : env.assign? name value = some env') :
    Frame [name] [] env env' := by
  obtain ⟨hlength, i, hbinds, hvalues⟩ := assignIn?_some (assignIn?_of_assign? h)
  -- the assigned variable was bound before, so none is added
  refine ⟨by rw [depth_eq, depth_eq, hlength], fun j other hsome => ?_, fun j other hsome => ?_,
    fun j other => ?_⟩
  · rw [hvalues]
    split
    · rfl
    · exact hsome
  · rw [hvalues] at hsome
    split at hsome
    · next h =>
      obtain ⟨rfl, rfl⟩ := h
      exact Or.inl hbinds.declares
    · exact Or.inl hsome
  · rw [hvalues]
    split
    · next h =>
      obtain ⟨rfl, rfl⟩ := h
      exact Or.inr (Or.inl ⟨hbinds, List.mem_singleton_self other⟩)
    · exact Or.inl rfl

/-- The scopes without the innermost one, if that is not the global one. -/
theorem scopes_of_depth_push (h : env'.depth = env.push.depth) :
    ∃ scope, env'.scopes = scope :: env'.pop.scopes := by
  obtain ⟨_ | ⟨scope, rest⟩, global⟩ := env'
  · cases h
  · exact ⟨scope, rfl⟩

/-- **Leaving a scope.** What was declared in it is gone, and what was assigned in it was either one
of its own variables or is bound outside. -/
theorem leave (h : Frame assigned declared env.push env') : Frame assigned [] env env'.pop := by
  obtain ⟨scope, hscopes⟩ := scopes_of_depth_push h.depth
  -- scope number `i` outside is scope number `i + 1` inside
  have hbefore : ∀ i name, valueAt? env.push.scopes (i + 1) name = valueAt? env.scopes i name :=
    fun _ _ => rfl
  have hafter : ∀ i name, valueAt? env'.scopes (i + 1) name = valueAt? env'.pop.scopes i name := by
    intro i name
    rw [hscopes]
    rfl
  refine ⟨?_, fun i name hsome => ?_, fun i name hsome => ?_, fun i name => ?_⟩
  · have hdepth := h.depth
    rw [depth_eq, hscopes, List.length_cons, ← depth_eq] at hdepth
    exact Nat.succ.inj hdepth
  · rw [← hafter]
    exact h.kept (i + 1) name hsome
  · rw [← hafter] at hsome
    exact Or.inl ((h.added (i + 1) name hsome).resolve_right fun h => absurd h.1 (by omega))
  · rw [← hafter, ← hbefore]
    refine (h.same (i + 1) name).imp_right fun hother => Or.inl ?_
    obtain ⟨hbinds, hassigned⟩ := hother.resolve_right fun h => absurd h.1 (by omega)
    exact ⟨⟨hbinds.declares, fun j hj => hbinds.innermost (j + 1) (by omega)⟩, hassigned⟩

end Frame

end Environment

open Environment (Frame)

/-! ### Actions within a frame -/

namespace Action

/-- The action stays in the frame from every machine, however it ends. -/
def Confined (assigned declared : List String) (x : Action σ α) : Prop :=
  ∀ m, Frame assigned declared m.env (outcome x m).2.env

variable {assigned declared assigned' declared' : List String} {x : Action σ α}

/-- An action that leaves the variables alone. -/
theorem Confined.of_env (h : ∀ m, (outcome x m).2.env = m.env) : Confined assigned declared x := by
  intro m
  rw [h m]
  exact Frame.refl _ _ _

theorem Confined.pure (a : α) : Confined assigned declared (pure a : Action σ α) :=
  of_env fun _ => rfl

theorem Confined.bind {f : α → Action σ β} (hx : Confined assigned declared x)
    (hf : ∀ a, Confined assigned declared (f a)) : Confined assigned declared (x >>= f) := by
  intro m
  have hxm := hx m
  rw [outcome_bind]
  rcases hr : outcome x m with ⟨_ | a, t⟩
  · rw [hr] at hxm
    exact hxm
  · rw [hr] at hxm
    exact hxm.trans (hf a t)

theorem Confined.mono (h : Confined assigned declared x) (ha : assigned ⊆ assigned')
    (hd : declared ⊆ declared') : Confined assigned' declared' x :=
  fun m => (h m).mono ha hd

theorem Confined.locate (h : Confined assigned declared x) (span : Span) (source : Nat) :
    Confined assigned declared (locate span source x) := by
  intro m
  have hm := h m
  rw [outcome_locate]
  rcases hr : outcome x m with ⟨_ | a, t⟩ <;> rw [hr] at hm <;> exact hm

theorem Confined.inScope (h : Confined assigned declared x) : Confined assigned [] (inScope x) := by
  intro m
  rw [outcome_inScope]
  exact (h { m with env := m.env.push }).leave

theorem Confined.iterate {turn : Action σ Bool} (h : Confined assigned declared turn)
    (turns : Nat) : Confined assigned declared (iterate turns turn) := by
  induction turns with
  | zero => exact of_env fun _ => rfl
  | succ turns ih =>
    rw [Action.iterate]
    refine h.bind fun more => ?_
    cases more with
    | true => exact ih
    | false => exact Confined.pure _

end Action

/-! ### Expressions -/

variable {setting : Setting σ}

theorem env_drawSprite (name : String) (span : Span) (m : Machine σ) :
    (outcome (drawSprite setting name span) m).2.env = m.env := by
  unfold drawSprite
  split
  · rw [outcome_warn]
  · rw [outcome_bind_ok (outcome_get m)]
    dsimp only
    cases setting.host.canvas m.host with
    | none => rfl
    | some canvas => rfl

/-- A request to the host, and a value made of its answer. -/
theorem confined_ask {assigned declared : List String} (request : σ → Except String α × σ)
    (f : α → Value) :
    Confined assigned declared (ask request >>= fun a => pure (f a)) := by
  refine Confined.bind (Confined.of_env fun m => ?_) fun _ => Confined.pure _
  rw [outcome_ask]
  rcases request m.host with ⟨_ | _, _⟩ <;> rfl

/-- **The functions of the host leave the variables alone.** -/
theorem confined_callFunction (function : String) (arguments : List Value) (span : Span) :
    Confined [] [] (callFunction setting function arguments span) := by
  unfold callFunction
  dsimp only
  split
  · exact confined_ask _ fun _ => .undefined
  · exact confined_ask _ fun _ => .undefined
  · exact confined_ask _ .bool
  · refine Confined.bind (Confined.of_env fun m => ?_) fun answer => ?_
    · rw [outcome_ask]
      rcases setting.host.prompt _ m.host with ⟨_ | _, _⟩ <;> rfl
    · cases answer <;> exact Confined.pure _
  · exact Confined.of_env fun m => rfl
  · exact (Confined.of_env (env_drawSprite _ _)).bind fun _ => Confined.pure _
  · exact Confined.of_env fun m => rfl

theorem confined_readVariable (name : String) :
    Confined [] [] (readVariable name : Action σ Value) := by
  refine Confined.of_env fun m => ?_
  unfold readVariable
  rw [outcome_bind_ok (outcome_get m)]
  cases m.env.get? name <;> rfl

theorem confined_evaluateAll_of {es : List Expr}
    (h : ∀ e ∈ es, ∀ depth, Confined [] [] (evaluate setting e depth)) (depth : Nat) :
    Confined [] [] (evaluateAll setting es depth) := by
  induction es with
  | nil => exact Confined.pure _
  | cons e es ih =>
    rw [evaluateAll]
    refine (h e List.mem_cons_self depth).bind fun _ => ?_
    exact (ih fun e he => h e (List.mem_cons_of_mem _ he)).bind fun _ => Confined.pure _

/-- **Evaluating leaves the variables alone.** -/
theorem confined_evaluate (e : Expr) (depth : Nat) :
    Confined [] [] (evaluate setting e depth) := by
  induction e using Expr.induction generalizing depth with
  | number | text | bool =>
    rw [evaluate]
    split <;> exact Confined.of_env fun _ => rfl
  | var name span =>
    rw [evaluate]
    split
    · exact Confined.of_env fun _ => rfl
    · exact (confined_readVariable name).locate _ _
  | call f arguments span ih =>
    rw [evaluate]
    split
    · exact Confined.of_env fun _ => rfl
    · exact (confined_evaluateAll_of ih (depth + 1)).bind fun _ =>
        (confined_callFunction _ _ _).locate _ _
  | unary op e ih =>
    rw [evaluate]
    split
    · exact Confined.of_env fun _ => rfl
    · exact (ih (depth + 1)).bind fun _ => Confined.pure _
  | binary op l r span ihl ihr =>
    rw [evaluate]
    split
    · exact Confined.of_env fun _ => rfl
    · refine (ihl (depth + 1)).bind fun _ => ?_
      split
      · exact Confined.pure _
      · exact Confined.pure _
      · exact (ihr (depth + 1)).bind fun _ => Confined.pure _

/-! ### Statements -/

theorem confined_checkDepth {assigned declared : List String} (depth : Nat) (span : Span) :
    Confined assigned declared (checkDepth setting depth span) := by
  unfold checkDepth
  split <;> exact Confined.of_env fun _ => rfl

theorem confined_assignVariable (name : String) (value : Value) :
    Confined [name] [] (assignVariable name value : Action σ Unit) := by
  intro m
  unfold assignVariable
  rw [outcome_bind_ok (outcome_get m)]
  cases h : m.env.assign? name value with
  | none => exact Frame.refl _ _ _
  | some env => exact Frame.assign h

theorem confined_executeSimple (s : Simple) (depth : Nat) :
    Confined s.assigned s.declared (executeSimple setting s depth) := by
  have hvalue : ∀ {assigned declared : List String} (e : Expr),
      Confined assigned declared (evaluate setting e (depth + 1)) := fun e =>
    (confined_evaluate e _).mono (List.nil_subset _) (List.nil_subset _)
  have hread : ∀ {assigned declared : List String} (name : String),
      Confined assigned declared (readVariable name : Action σ Value) := fun name =>
    (confined_readVariable name).mono (List.nil_subset _) (List.nil_subset _)
  unfold executeSimple
  refine (confined_checkDepth depth _).bind fun _ => Confined.locate ?_ _ _
  cases s with
  | declare name e span =>
    refine (hvalue e).bind fun v m => ?_
    exact Frame.declare m.env name v
  | assign name kind e span =>
    cases kind with
    | replace => exact (hvalue e).bind fun v => confined_assignVariable name v
    | add =>
      refine (hvalue e).bind fun v => (hread name).bind fun current => ?_
      exact confined_assignVariable name _
  | increment name span => exact (hread name).bind fun current => confined_assignVariable name _
  | evaluate e span => exact (hvalue e).bind fun _ => Confined.pure _

theorem confined_test {assigned declared : List String} (condition : Expr) (depth : Nat) :
    Confined assigned declared (test setting condition depth) :=
  Confined.bind ((confined_evaluate condition depth).mono (List.nil_subset _) (List.nil_subset _))
    fun _ => Confined.pure _

variable {turns : Nat}

theorem confined_executeAll_of {ss : List Stmt}
    (h : ∀ s ∈ ss, ∀ depth, Confined s.assigned s.declared (execute setting turns s depth))
    (depth : Nat) : Confined (Stmt.assignedAll ss) (ss.flatMap Stmt.declared)
      (executeAll setting turns ss depth) := by
  induction ss with
  | nil => exact Confined.pure _
  | cons s ss ih =>
    rw [executeAll, Stmt.assignedAll, List.flatMap_cons]
    have hfirst := h s List.mem_cons_self depth
    have hothers := ih fun s hs => h s (List.mem_cons_of_mem _ hs)
    refine (hfirst.mono (List.subset_append_left _ _) (List.subset_append_left _ _)).bind
      fun flow => ?_
    cases flow with
    | normal => exact hothers.mono (List.subset_append_right _ _) (List.subset_append_right _ _)
    | broke => exact Confined.pure _

/-- A body runs in a scope of its own, so what it declares is gone afterwards. -/
theorem confined_body_of {ss : List Stmt}
    (h : ∀ s ∈ ss, ∀ depth, Confined s.assigned s.declared (execute setting turns s depth))
    (depth : Nat) :
    Confined (Stmt.assignedAll ss) [] (inScope (executeAll setting turns ss depth)) :=
  (confined_executeAll_of h depth).inScope

theorem confined_executeOptional (s : Option Simple) (depth : Nat) :
    Confined (s.toList.flatMap Simple.assigned) (s.toList.flatMap Simple.declared)
      (executeOptional setting s depth) := by
  cases s with
  | none => exact Confined.pure _
  | some s =>
    rw [Option.toList_some, List.flatMap_singleton, List.flatMap_singleton]
    exact confined_executeSimple s depth

theorem confined_testOptional {assigned declared : List String} (condition : Option Expr)
    (depth : Nat) : Confined assigned declared (testOptional setting condition depth) := by
  cases condition with
  | none => exact Confined.pure _
  | some c => exact confined_test c depth

theorem confined_forTurn_of {c : Option Expr} {update : Option Simple} {body : List Stmt}
    {depth : Nat} (hbody : Confined (Stmt.assignedAll body) []
      (inScope (executeAll setting turns body (depth + 1)))) :
    Confined (update.toList.flatMap Simple.assigned ++ Stmt.assignedAll body)
      (update.toList.flatMap Simple.declared)
      (forTurn setting turns c update body depth) := by
  unfold forTurn
  refine (confined_testOptional c (depth + 1)).bind fun holds => ?_
  split
  · refine (hbody.mono (List.subset_append_right _ _) (List.nil_subset _)).bind fun flow => ?_
    cases flow with
    | broke => exact Confined.pure _
    | normal =>
      -- the update runs in the scope of the header, not in that of the body
      refine Confined.bind ?_ fun _ => Confined.pure _
      exact (confined_executeOptional update (depth + 1)).mono (List.subset_append_left _ _)
        (List.Subset.refl _)
  · exact Confined.pure _

/-- **A `for` loop stays in its frame.** What its header declares goes with the scope of the
header. -/
theorem confined_for_of {first : Option Simple} {c : Option Expr} {update : Option Simple}
    {body : List Stmt} {depth : Nat} (hbody : Confined (Stmt.assignedAll body) []
      (inScope (executeAll setting turns body (depth + 1)))) :
    Confined (first.toList.flatMap Simple.assigned ++
        (update.toList.flatMap Simple.assigned ++ Stmt.assignedAll body)) []
      (inScope do
        executeOptional setting first (depth + 1)
        iterate turns (forTurn setting turns c update body depth)) := by
  have hfirst : Confined _ _ (executeOptional setting first (depth + 1)) :=
    confined_executeOptional first (depth + 1)
  have hturns : Confined _ _ (iterate turns (forTurn setting turns c update body depth)) :=
    (confined_forTurn_of hbody).iterate turns
  exact ((hfirst.mono (List.subset_append_left _ _) (List.subset_append_left _ _)).bind fun _ =>
    hturns.mono (List.subset_append_right _ _) (List.subset_append_right _ _)).inScope

/-- **A statement stays in its frame.** -/
theorem confined_execute (s : Stmt) (depth : Nat) :
    Confined s.assigned s.declared (execute setting turns s depth) := by
  induction s using Stmt.induction generalizing depth with
  | simple s =>
    rw [execute]
    exact (confined_executeSimple s depth).bind fun _ => Confined.pure _
  | ifThen c body span ih =>
    rw [execute]
    refine (confined_checkDepth depth span).bind fun _ => ?_
    refine ((confined_test c (depth + 1)).locate _ _).bind fun holds => ?_
    split
    · exact confined_body_of ih (depth + 1)
    · exact Confined.pure _
  | ifElse c body otherwise span ihbody ihotherwise =>
    rw [execute]
    refine (confined_checkDepth depth span).bind fun _ => ?_
    refine ((confined_test c (depth + 1)).locate _ _).bind fun holds => ?_
    split
    · exact (confined_body_of ihbody (depth + 1)).mono (List.subset_append_left _ _)
        (List.Subset.refl _)
    · exact (confined_body_of ihotherwise (depth + 1)).mono (List.subset_append_right _ _)
        (List.Subset.refl _)
  | while_ c body span ih =>
    rw [execute]
    refine (confined_checkDepth depth span).bind fun _ => ?_
    refine (Confined.iterate ?_ turns).bind fun _ => Confined.pure _
    refine ((confined_test c (depth + 1)).locate _ _).bind fun holds => ?_
    split
    · exact (confined_body_of ih (depth + 1)).bind fun _ => Confined.pure _
    · exact Confined.pure _
  | for_ first c update body span ih =>
    rw [execute_for]
    refine (confined_checkDepth depth span).bind fun _ => ?_
    -- the index of the header is declared in the scope of the loop, which is left with it
    exact ((confined_for_of (confined_body_of ih (depth + 1))).locate _ _).bind fun _ =>
      Confined.pure _
  | break_ span =>
    rw [execute]
    exact (confined_checkDepth depth span).bind fun _ => Confined.pure _
  | block body span ih =>
    rw [execute]
    exact (confined_checkDepth depth span).bind fun _ => confined_body_of ih (depth + 1)

/-- **A program stays in its frame**, also when it ends at a `break` that no loop takes. -/
theorem confined_executeTop (ss : List Stmt) :
    Confined (Stmt.assignedAll ss) (ss.flatMap Stmt.declared) (executeTop setting turns ss) := by
  induction ss with
  | nil => exact Confined.pure _
  | cons s ss ih =>
    rw [executeTop, Stmt.assignedAll, List.flatMap_cons]
    refine ((confined_execute s 0).mono (List.subset_append_left _ _)
      (List.subset_append_left _ _)).bind fun flow => ?_
    cases flow with
    | normal => exact ih.mono (List.subset_append_right _ _) (List.subset_append_right _ _)
    -- a `break` that comes out here is a fault, which leaves the variables where they are
    | broke => exact Confined.of_env fun _ => rfl

/-- **The frame of execution.** However a statement ends, normally, at a `break` or at a fault, the
scopes from before are there with the same variables, except that a `let` may have added its own to
the innermost one; and other values have at most the innermost bindings of the names that the
statement assigns to, and the binding that a `let` writes. The same holds of a whole program, whose
`let` statements add to the scope it was started in, so that after a fault too the next program
finds the scopes it started from. -/
theorem execution_frame (turns : Nat) :
    (∀ (setting : Setting σ) (s : Stmt) (depth : Nat) (m : Machine σ),
      Frame s.assigned s.declared m.env (outcome (execute setting turns s depth) m).2.env) ∧
    ∀ (world : World σ) (p : Program) (m : Machine σ),
      Frame (Stmt.assignedAll p.statements) (p.statements.flatMap Stmt.declared) m.env
        (run world turns p m).2.env :=
  ⟨fun _ s depth m => confined_execute s depth m,
    fun _ p m => confined_executeTop p.statements m⟩

end Blockwork.Run
