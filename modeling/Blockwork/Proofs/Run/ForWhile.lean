import Mathlib
import Blockwork.Proofs.Run.Sinking
import Blockwork.Proofs.Script.Updates

/-!
# Loops in other words

A `for` loop can be written as a block with a `while` loop in it (`Stmt.whileForm`). The two are
executed by different means: the header has a scope of its own in both, but the update runs in it
or in that of the body, and everything in the loop is one or two levels deeper in the second form.

They mean the same, from every machine and on every host, unless the deeper one reaches the limit on
depth (`execute_for_whileForm`). This takes that the update declares nothing, which the reader of
headers sees to: a declaration would be gone before the next turn in the one form, and not in the
other.

A turn of the one loop is compared with a turn of the other in three parts. The condition runs in
the same scopes; the update runs below one scope that is empty; and the body, which has a scope
around each of its turns in both forms, runs with an empty scope below its own.
-/

namespace Blockwork.Script

/-- A `for` loop as a block with a `while` loop. The places of the block, of the loop and of the
block around the body are given. -/
def Stmt.whileForm (first : Option Simple) (c : Option Expr) (update : Option Simple)
    (body : List Stmt) (whole loop inner : Span) : Stmt :=
  .block (first.toList.map .simple ++
    [.while (c.getD (.bool true)) (.block body inner :: update.toList.map .simple) loop]) whole

end Blockwork.Script

namespace Blockwork.Run

open Script Blockwork.Run.Action

variable {σ α β : Type} {k n : Nat} {setting : Setting σ} {turns depth depth' : Nat}
  {first update : Option Simple} {c : Option Expr} {body : List Stmt} {whole loop inner span : Span}

/-! ### Scopes that one side alone has -/

/-- A scope that is empty when it is left. -/
theorem Sinks.close {x y : Action σ α} (h : Sinks 1 0 x y) : Sinks 0 n x (Action.inScope y) := by
  intro m m' hm
  obtain rfl := hm.eq_of_zero
  have hpush : Machine.Spaced 1 0 m' { m' with env := m'.env.push } :=
    ⟨.here _, rfl, rfl, rfl, rfl⟩
  rw [outcome_inScope]
  refine (h m' _ hpush).imp id fun ⟨hend, hinner, hglobal, hhost, hdiagnostics, hdrawn⟩ =>
    ⟨hend, ?_, hglobal, hhost, hdiagnostics, hdrawn⟩
  have htail : ∀ {scopes scopes' : List Scope}, Spaced 1 0 scopes scopes' →
      scopes'.tail = scopes := by
    rintro _ _ (_ | _) <;> rfl
  change Spaced 0 n _ (List.tail _)
  rw [htail hinner]
  exact (Machine.Spaced.refl _).inner

/-- It does not matter whether the result is thrown away inside a scope or outside. -/
theorem Sinks.scoped {x : Action σ α} {y : Action σ β} {b : β}
    (h : Sinks k (n + 1) (x >>= fun _ => pure b) y) (span : Span) (source : Nat) :
    Sinks k n (Action.locate span source (Action.inScope x) >>= fun _ => pure b)
      (Action.inScope y) := by
  intro m m' hm
  have hxy := h _ _ hm.push
  rw [outcome_bind] at hxy
  rw [outcome_bind, outcome_locate, outcome_inScope, outcome_inScope]
  rcases hx : outcome x { m with env := m.env.push } with ⟨d | a, t⟩ <;> rw [hx] at hxy
  · refine hxy.imp id fun ⟨hend, ht⟩ => ⟨?_, ht.pop⟩
    rw [← hend]
    exact congrArg Except.error (Diagnostic.cause_locate d span source)
  · exact hxy.imp id fun ⟨hend, ht⟩ => ⟨hend, ht.pop⟩

/-- The limit on depth may be checked once more. -/
theorem Sinks.checked {x y : Action σ α} (h : Sinks k n x y) (depth : Nat) (span : Span) :
    Sinks k n x (checkDepth setting depth span >>= fun _ => y) := by
  unfold checkDepth
  split
  · intro m m' hm
    exact .inl rfl
  · exact h

/-! ### The two loops -/

/-- A missing condition is one that holds. -/
theorem sinks_testOptional_getD {depth depth' : Nat} (h : depth ≤ depth') :
    Sinks k n (testOptional setting c depth) (test setting (c.getD (.bool true)) depth') := by
  cases c with
  | some c => exact sinks_test c h
  | none =>
    change Sinks k n _ (evaluate setting (.bool true) depth' >>= _)
    rw [evaluate]
    split
    · exact sinks_tooDeep _
    · exact sinks_pure true

theorem sinks_body (h : depth ≤ depth') :
    Sinks k n (inScope (executeAll setting turns body depth))
      (inScope (executeAll setting turns body depth')) :=
  sinks_body_of (fun s _ _ _ _ hn h => sinks_execute s hn h) h

/-- The update as the last statement of a body. -/
theorem sinks_update (hupdate : ∀ u ∈ update, u.isDeclaration = false) (h : depth ≤ depth') :
    Sinks k n (executeOptional setting update depth >>= fun _ => pure .normal)
      (executeAll setting turns (update.toList.map .simple) depth') := by
  cases update with
  | none => exact sinks_pure _
  | some u =>
    rw [Option.toList_some, List.map_singleton, executeAll, execute, bind_assoc]
    exact (sinks_executeSimple u (.inl (hupdate u rfl)) h).bind fun _ => sinks_pure _

/-- A turn behind its condition: the body and the update, unless the body ends at a `break`. -/
def forRound (setting : Setting σ) (turns : Nat) (update : Option Simple) (body : List Stmt)
    (depth : Nat) : Action σ Flow := do
  match ← inScope (executeAll setting turns body (depth + 1)) with
  | .broke => return .broke
  | .normal =>
    executeOptional setting update (depth + 1)
    return .normal

theorem forTurn_eq : forTurn setting turns c update body depth = (do
    if ← testOptional setting c (depth + 1) then
      return (← forRound setting turns update body depth) = .normal
    else
      return false) := by
  unfold forTurn forRound
  congr 1
  funext holds
  cases holds with
  | false => rfl
  | true =>
    simp only [if_true, bind_assoc]
    congr 1
    funext flow
    -- a `break` ends the round before the update
    cases flow with
    | broke => rfl
    | normal =>
      simp only [bind_assoc, pure_bind]
      rfl

/-- **A round of the loop.** In both loops no update follows a `break`. -/
theorem sinks_forRound (hupdate : ∀ u ∈ update, u.isDeclaration = false) :
    Sinks 1 0 (forRound setting turns update body depth)
      (executeAll setting turns (.block body inner :: update.toList.map .simple)
        (depth + 1 + 1)) := by
  rw [executeAll, execute]
  -- the block around the body has a check of its own, two levels further in
  refine Sinks.bind ((sinks_body (by omega)).checked _ _) fun flow => ?_
  cases flow with
  | broke => exact sinks_pure _
  | normal => exact sinks_update hupdate (Nat.le_succ _)

theorem sinks_loop (hupdate : ∀ u ∈ update, u.isDeclaration = false) :
    Sinks 0 n (iterate turns (forTurn setting turns c update body depth) >>= fun _ => pure .normal)
      (execute setting turns (.while (c.getD (.bool true))
        (.block body inner :: update.toList.map .simple) loop) (depth + 1)) := by
  rw [execute]
  refine Sinks.checked (Sinks.bind (Sinks.iterate ?_ turns) fun _ => sinks_pure _) _ _
  rw [forTurn_eq]
  refine ((sinks_testOptional_getD (Nat.le_succ _)).locate_right _ _).bind fun holds => ?_
  cases holds with
  | false => exact sinks_pure _
  | true => exact (sinks_forRound hupdate).close.bind fun _ => sinks_pure _

theorem executeAll_singleton (s : Stmt) (depth : Nat) :
    executeAll setting turns [s] depth = execute setting turns s depth := by
  rw [executeAll]
  conv_rhs => rw [← bind_pure (execute setting turns s depth)]
  congr 1
  funext flow
  cases flow with
  | normal => rw [executeAll]
  | broke => rfl

/-- **A loop and its `while` form**, from the same machine. -/
theorem sinks_whileForm (hupdate : ∀ u ∈ update, u.isDeclaration = false) :
    Sinks 0 n (execute setting turns (.for first c update body span) depth)
      (execute setting turns (.whileForm first c update body whole loop inner) depth) := by
  rw [execute_for, Stmt.whileForm, execute]
  refine (sinks_checkDepth le_rfl _ _).bind fun _ => Sinks.scoped ?_ _ _
  rw [bind_assoc]
  -- without a first part the block has one statement, and nothing runs in front of the loop
  cases first with
  | none =>
    rw [Option.toList_none, List.map_nil, List.nil_append, executeAll_singleton]
    exact sinks_loop hupdate
  | some s =>
    rw [Option.toList_some, List.map_singleton, List.singleton_append, executeAll, execute,
      bind_assoc, executeAll_singleton]
    refine (sinks_executeSimple s (.inr (Nat.succ_pos n)) le_rfl).bind fun _ => ?_
    exact sinks_loop hupdate

/-! ### What a loop does -/

/-- So many turns, after each of which another one is to follow. -/
inductive GoesOn (turn : Action σ Bool) : Nat → Machine σ → Machine σ → Prop
  | none (m : Machine σ) : GoesOn turn 0 m m
  | next {k : Nat} {m t u : Machine σ} :
      outcome turn m = (.ok true, t) → GoesOn turn k t u → GoesOn turn (k + 1) m u

theorem GoesOn.outcome_iterate {turn : Action σ Bool} {m t : Machine σ} (h : GoesOn turn k m t)
    (turns : Nat) : outcome (iterate (k + turns) turn) m = outcome (iterate turns turn) t := by
  induction h with
  | none m => rw [Nat.zero_add]
  | next hturn _ ih => rw [Nat.succ_add, outcome_iterate_next hturn, ih]

/-- **A `break` ends the loop**, where it is reached: nothing of the loop runs behind it, and the
scope of the header is left. -/
theorem outcome_for_of_break {m m₀ m₁ m₂ m₃ : Machine σ} (hdepth : depth ≤ depthLimit)
    (hfirst : outcome (executeOptional setting first (depth + 1)) { m with env := m.env.push }
      = (.ok (), m₀))
    (hturns : GoesOn (forTurn setting turns c update body depth) k m₀ m₁) (hk : k < turns)
    (htest : outcome (testOptional setting c (depth + 1)) m₁ = (.ok true, m₂))
    (hbody : outcome (inScope (executeAll setting turns body (depth + 1))) m₂
      = (.ok .broke, m₃)) :
    outcome (execute setting turns (.for first c update body span) depth) m
      = (.ok .normal, { m₃ with env := m₃.env.pop }) := by
  have hlast : outcome (forTurn setting turns c update body depth) m₁ = (.ok false, m₃) := by
    unfold forTurn
    rw [outcome_bind_ok htest, if_pos rfl, outcome_bind_ok hbody]
    rfl
  -- the turns that go on come first, and the bound leaves one for the last
  have hloop : outcome (iterate turns (forTurn setting turns c update body depth)) m₀
      = (.ok (), m₃) := by
    obtain ⟨left, hleft⟩ := Nat.exists_eq_add_of_lt hk
    have hiterate := hturns.outcome_iterate (left + 1)
    rw [← Nat.add_assoc, ← hleft] at hiterate
    rw [hiterate, outcome_iterate_last hlast]
  have hinside : outcome (executeOptional setting first (depth + 1) >>= fun _ =>
      iterate turns (forTurn setting turns c update body depth)) { m with env := m.env.push }
        = (.ok (), m₃) := by
    rw [outcome_bind_ok hfirst, hloop]
  have hscope := outcome_inScope (executeOptional setting first (depth + 1) >>= fun _ =>
    iterate turns (forTurn setting turns c update body depth)) m
  rw [hinside] at hscope
  rw [execute_for, outcome_bind_ok (outcome_checkDepth hdepth),
    outcome_bind_ok (outcome_locate_ok hscope)]
  rfl

/-- No `break` comes out of a loop. -/
theorem ne_broke_of_for (m : Machine σ) :
    (outcome (execute setting turns (.for first c update body span) depth) m).1 ≠ .ok .broke := by
  rw [execute_for, outcome_bind]
  rcases outcome (checkDepth setting depth span) m with ⟨_ | _, t⟩
  · nofun
  dsimp only
  rw [outcome_bind]
  rcases outcome (locate span setting.source _) t with ⟨_ | _, u⟩
  · nofun
  · nofun

/-- **A `for` loop means its `while` form.** Take any `for` loop in a program that has been read,
however far inside, and the block of its `first` part and a `while` loop over its condition, or over
`true` if it has none, in which its body as a block is followed by its update. From any machine, on
any host, with any bound on turns and at any depth, the two end alike, normally or with a fault of
the same cause, and leave the same machine: the same variables, the same state of the host and the
same diagnostics. This is so unless the `while` form ends at the limit on depth.

In particular, a `break` in the body does not come out of the loop; it ends the loop where it is
reached, without the update; and of what is declared in the header or the body nothing is left. -/
theorem execute_for_whileForm {text : String} {source : Nat} {p : Program} {s : Stmt}
    {steps : List Step} (h : Program.parse text source = .ok p) (hs : s ∈ p.statements)
    (hway : s.Way steps (.for first c update body span)) (setting : Setting σ)
    (turns depth : Nat) (whole loop inner : Span) (m : Machine σ) :
    let byFor := outcome (execute setting turns (.for first c update body span) depth) m
    let byWhile :=
      outcome (execute setting turns (.whileForm first c update body whole loop inner) depth) m
    (ending byWhile.1 ≠ .error .tooDeep →
      ending byFor.1 = ending byWhile.1 ∧ byFor.2 = byWhile.2) ∧
    byFor.1 ≠ .ok .broke ∧
    Environment.Frame (Stmt.for first c update body span).assigned [] m.env byFor.2.env ∧
    ∀ k m₀ m₁ m₂ m₃, depth ≤ depthLimit → k < turns →
      outcome (executeOptional setting first (depth + 1)) { m with env := m.env.push }
        = (.ok (), m₀) →
      GoesOn (forTurn setting turns c update body depth) k m₀ m₁ →
      outcome (testOptional setting c (depth + 1)) m₁ = (.ok true, m₂) →
      outcome (inScope (executeAll setting turns body (depth + 1))) m₂ = (.ok .broke, m₃) →
      byFor = (.ok .normal, { m₃ with env := m₃.env.pop }) := by
  refine ⟨fun hshallow => ?_, ne_broke_of_for m, confined_execute _ depth m,
    fun k m₀ m₁ m₂ m₃ hdepth hk hfirst hturns htest hbody =>
      outcome_for_of_break hdepth hfirst hturns hk htest hbody⟩
  -- the parser lets no declaration stand as an update, so the update adds nothing to a scope
  have hupdate := Program.isDeclaration_update h hs hway
  have hsinks : Sinks 0 0
      (execute setting turns (.for first c update body span) depth)
      (execute setting turns (.whileForm first c update body whole loop inner) depth) :=
    sinks_whileForm hupdate
  -- the `while` form may be too deep where the loop is not; `hshallow` excludes that
  obtain ⟨hend, hmachine⟩ := (hsinks m m (.refl m)).resolve_left hshallow
  exact ⟨hend, hmachine.eq_of_zero.symm⟩

/-- A loop with a declaration, an update and a `break`. -/
def countedLoop : String :=
  "for (let i = 0; i < 9; i++) \x7b let j = i; print(j); if (i == 1) \x7b break; \x7d \x7d"

/-- The statement is a loop whose `while` form ends without a fault on a new machine. -/
def endsAsWhile (setting : Setting σ) (turns : Nat) (host : σ) : Stmt → Bool
  | .for first c update body _ =>
    (outcome (execute setting turns (.whileForm first c update body default default default) 0)
      (.start host)).1.isOk
  | _ => false

theorem execute_for_whileForm_counted : ∃ p first c update body span,
    Program.parse countedLoop 0 = .ok p ∧ .for first c update body span ∈ p.statements ∧
    let setting := ⟨⟨Recording.host, [], 0⟩, 0⟩
    let byFor := outcome (execute setting 5 (.for first c update body span) 0)
      (.start (.start none [] []))
    let byWhile := outcome
      (execute setting 5 (.whileForm first c update body default default default) 0)
      (.start (.start none [] []))
    ending byWhile.1 ≠ .error .tooDeep ∧ ending byFor.1 = ending byWhile.1 ∧
      byFor.2 = byWhile.2 := by
  have hread : (Program.parse countedLoop 0).toOption.any (fun p =>
      p.statements.any (endsAsWhile ⟨⟨Recording.host, [], 0⟩, 0⟩ 5 (.start none [] []))) = true := by
    decide +kernel
  obtain ⟨p, hp, hany⟩ := exists_of_any hread
  obtain ⟨s, hs, hends⟩ := List.any_eq_true.mp hany
  cases s with
  | «for» first c update body span =>
    have hok : ∃ flow, (outcome (execute ⟨⟨Recording.host, [], 0⟩, 0⟩ 5
        (.whileForm first c update body default default default) 0)
        (.start (.start none [] []))).1 = .ok flow := by
      rw [endsAsWhile] at hends
      generalize (outcome _ _).1 = ended at hends ⊢
      cases ended with
      | error d => cases hends
      | ok flow => exact ⟨flow, rfl⟩
    obtain ⟨flow, hflow⟩ := hok
    have hshallow : ending (Except.ok flow : Except Diagnostic Flow) ≠ .error .tooDeep := nofun
    rw [← hflow] at hshallow
    have hsame := (execute_for_whileForm hp hs (.here _) ⟨⟨Recording.host, [], 0⟩, 0⟩ 5 0
      default default default (.start (.start none [] []))).1
    exact ⟨p, first, c, update, body, span, hp, hs, hshallow, hsame hshallow⟩
  | _ => cases hends

end Blockwork.Run
