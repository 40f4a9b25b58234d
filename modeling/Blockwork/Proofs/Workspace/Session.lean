import Mathlib
import Blockwork.Proofs.Workspace.Ordered
import Blockwork.Proofs.Workspace.Undoing

/-!
# A session of editing

What has been shown of single edits asks that the workspace is well placed, that its identifiers are
distinct and that its slots are in order. In a session that begins with an empty desk, makes no
second block of one and restores no lists but those of maps, nobody has to check this: a desk that is
reached in it is `Tidy` (`Desk.Tended.tidy`), and the blocks in hand have identifiers of their own.
So in a session

* an edit of a placed block touches only that block, whatever it takes from the hand
  (`Desk.Tended.local_of_runs`);
* structural edits can be undone, and so can any number of them, the last first
  (`Desk.Tended.undone`).

The second is one step repeated: an undo leads back exactly to the desk from which the edit led, so
the edit before it can be undone there.
-/

namespace Blockwork

open scoped List

namespace Desk

variable {r : Registry} {d d' : Desk} {op back : Operation}

/-! ### Tidy desks -/

/-- What edits of a workspace rely on. -/
structure Tidy (r : Registry) (d : Desk) : Prop where
  sound : d.Sound r
  distinct : d.Distinct
  sorted : d.Sorted

/-- What becomes of an empty desk in a session. -/
def Tended (r : Registry) : Desk → Prop :=
  Relation.ReflTransGen (fun d d' => Move d d' ∧ Orderly d d') (empty r)

/-- **All that is reached in a session is tidy.** -/
theorem Tended.tidy (h : Tended r d) : d.Tidy r := by
  -- the identifiers ask for steps without copies, the order for steps without such lists
  have hunduplicated : Unduplicated r d := Relation.ReflTransGen.mono (fun _ _ => And.left) _ _ h
  have horderly := Relation.ReflTransGen.mono (fun _ _ => And.right) _ _ h
  exact ⟨sound_of_reachable hunduplicated.reachable, hunduplicated.distinct,
    sorted_of_orderly horderly⟩

namespace Tidy

theorem wellPlaced (h : d.Tidy r) : d.workspace.WellPlaced :=
  h.sound.workspace.wellPlaced

theorem nodup (h : d.Tidy r) : d.workspace.ids.Nodup :=
  h.distinct.nodup.of_append_left

theorem sorted_blocks (h : d.Tidy r) : ∀ b ∈ d.workspace.blocks, b.Sorted :=
  List.forall_mem_map.mpr h.sorted.workspace

/-- What is in hand is not in the workspace. -/
theorem fresh {taken rest : List PlacedBlock} (h : d.Tidy r) (hperm : d.hand ~ taken ++ rest) :
    ∀ i ∈ Block.idsAll taken, i ∉ d.workspace.ids := by
  intro i hi hplaced
  have hhand : i ∈ Block.idsAll d.hand :=
    (idsAll_perm hperm).mem_iff.mpr (List.mem_append_left _ hi)
  exact List.disjoint_of_nodup_append h.distinct.nodup hplaced hhand

end Tidy

/-! ### Operations on a desk -/

/-- The operation succeeds with blocks from the hand, and what it gives goes to the hand. -/
inductive Runs (op : Operation) : Desk → Desk → Prop
  | intro {ws ws' : Workspace} {hand given rest : List PlacedBlock} :
      op.run? ws = some (ws', given) → hand ~ op.taken ++ rest →
      Runs op ⟨ws, hand⟩ ⟨ws', given ++ rest⟩

theorem Runs.move (h : Runs op d d') : Move d d' := by
  cases h with
  | intro hok hperm => exact .run hok hperm

/-- **An operation leaves a tidy desk tidy.** -/
theorem Tidy.run (h : d.Tidy r) (hop : op.Orderly) (hruns : Runs op d d') : d'.Tidy r := by
  have hsound : d'.Sound r := Move.sound h.sound hruns.move
  have hdistinct : d'.Distinct := h.distinct.of_renews hruns.move.renews
  refine ⟨hsound, hdistinct, ?_⟩
  cases hruns with
  | intro hok hperm => exact h.sorted.run hop hok hperm

/-- An operation goes on with a session. -/
theorem Tended.run {ws' : Workspace} {given rest : List PlacedBlock} (h : Tended r d)
    (op : Operation) (hop : op.Orderly) (hok : op.run? d.workspace = some (ws', given))
    (hhand : d.hand ~ op.taken ++ rest) : Tended r ⟨ws', given ++ rest⟩ := by
  have hruns : Runs op d ⟨ws', given ++ rest⟩ := .intro hok hhand
  have hsorted := (h.tidy.run hop hruns).sorted
  exact h.tail ⟨hruns.move, (orderly_iff h.tidy.sorted (.inl hruns.move)).mpr hsorted⟩

/-- **In a session an edit of a placed block touches only that block.** -/
theorem Tended.local_of_runs {id : BlockId} {e : Edit} (h : Tended r d)
    (hruns : Runs (.edit id e) d d') :
    ∃ given rest, d.hand ~ e.taken ++ rest ∧ d'.hand = given ++ rest ∧
      e.Local d.workspace id d'.workspace given := by
  have htidy := h.tidy
  cases hruns with
  | @intro ws ws' hand given rest hok hperm =>
    have hlocal := Edit.local_of_ofPlaced htidy.nodup htidy.sorted_blocks (htidy.fresh hperm)
      (Operation.ok_of_toOption hok)
    exact ⟨given, rest, hperm, rfl, hlocal⟩

/-! ### Undoing -/

/-- What undoes a structural edit of the workspace. -/
inductive Undoes (ws : Workspace) : Operation → Operation → Prop
  | child {id : BlockId} {index : Nat} {c : PlacedBlock} {ws' : Workspace} :
      ws.removeChild id index = .ok (ws', c) →
      Undoes ws (.edit id (.removeChild index)) (.edit id (.insertChild index c))
  | reporter {id : BlockId} {b c : PlacedBlock} {slot name : String} {kind : Kind} :
      ws.find? id = some b → ws.registry.kind? b.type = some kind →
      Slots.get? b.slots slot = some (.reporter name c) →
      Undoes ws (.remove c.id) (.edit id (.insertReporter slot c))
  | order {id : BlockId} {source target : Nat} :
      Undoes ws (.edit id (.moveChild source target)) (.edit id (.moveChild target source))

theorem Undoes.orderly {ws : Workspace} (h : Undoes ws op back) : op.Orderly := by
  rintro s rfl
  cases h

/-- An edit that gives nothing back leaves what it has not taken in the hand. -/
theorem Runs.of_edit {ws ws' : Workspace} {hand rest : List PlacedBlock} {id : BlockId} {e : Edit}
    (hok : e.ofPlaced ws id = .ok (ws', [])) (hperm : hand ~ e.taken ++ rest) :
    Runs (.edit id e) ⟨ws, hand⟩ ⟨ws', rest⟩ := by
  have hrun : (Operation.edit id e).run? ws = some (ws', []) := congrArg Except.toOption hok
  exact .intro hrun hperm

/-- **A structural edit can be undone**, and the desk is then as it was. -/
theorem Tidy.undone (h : d.Tidy r) (hundoes : Undoes d.workspace op back) (hruns : Runs op d d') :
    Runs back d' d := by
  have hplaced := h.wellPlaced
  have hnodup := h.nodup
  have hsorted := h.sorted_blocks
  cases hruns with
  | @intro ws ws' hand given rest hok hperm =>
    cases hundoes with
    | @child id index c _ hremove =>
      obtain ⟨_, hrun, ⟨⟩⟩ := Operation.some_of_toOption hok
      cases hremove.symm.trans hrun
      -- the child is in hand now, and the undo takes it from there
      have hback := Workspace.insertChild_of_removeChild hplaced hnodup hremove
      exact .of_edit (congrArg (Except.map (·, [])) hback) (hperm.symm.cons c)
    | @reporter id b c slot name kind hb hkind hslot =>
      obtain ⟨_, hrun, ⟨⟩⟩ := Operation.some_of_toOption hok
      obtain ⟨ws', hremove, hback⟩ :=
        Workspace.insertReporter_of_remove hplaced hnodup hsorted hb hkind hslot
      cases hremove.symm.trans hrun
      exact .of_edit (congrArg (Except.map (·, [])) hback) (hperm.symm.cons c)
    | @order id source target =>
      obtain ⟨_, hrun, ⟨⟩⟩ := Operation.some_of_toOption hok
      obtain ⟨_, _, _, _, _, _, hback⟩ :=
        Workspace.moveChild_of_moveChild hnodup hsorted hrun
      exact .of_edit (congrArg (Except.map (·, [])) hback) hperm.symm

/-- Structural edits one after the other, with what undoes them, the last first. -/
inductive Logged (d : Desk) : List Operation → Desk → Prop
  | nil : Logged d [] d
  | snoc {backs : List Operation} {d' d'' : Desk} {op back : Operation} :
      Logged d backs d' → Undoes d'.workspace op back → Runs op d' d'' →
      Logged d (back :: backs) d''

/-- Operations one after the other. -/
inductive RunsAll : List Operation → Desk → Desk → Prop
  | nil {d : Desk} : RunsAll [] d d
  | cons {op : Operation} {ops : List Operation} {d d' d'' : Desk} :
      Runs op d d' → RunsAll ops d' d'' → RunsAll (op :: ops) d d''

theorem Logged.undone {backs : List Operation} (h : d.Tidy r) (hlogged : Logged d backs d') :
    d'.Tidy r ∧ RunsAll backs d' d := by
  induction hlogged with
  | nil => exact ⟨h, .nil⟩
  | snoc _ hundoes hruns ih =>
    -- the last edit was made on a desk that is tidy as well, so it is undone there
    obtain ⟨htidy, hall⟩ := ih
    exact ⟨htidy.run hundoes.orderly hruns, .cons (htidy.undone hundoes hruns) hall⟩

/-- **In a session any number of structural edits can be undone**, the last first, and the desk is
then as it was before them. -/
theorem Tended.undone {backs : List Operation} (h : Tended r d) (hlogged : Logged d backs d') :
    RunsAll backs d' d :=
  (hlogged.undone h.tidy).2

/-- A child that is taken out in a session goes back to its place. -/
example : ∃ d d' : Desk, Tended .standard d ∧ d.workspace.ids = [2, 1] ∧ d'.workspace.ids = [2] ∧
    RunsAll [.edit 2 (.insertChild 0 (.mk 1 "print" [.literal "input1" "Hello World!"] []))] d' d := by
  have hnone : Tended .standard (empty .standard) := .refl
  have hprint := hnone.run (.instantiate "print") (by rintro _ ⟨⟩) rfl (.refl _)
  have hrepeat := hprint.run (.instantiate "repeat") (by rintro _ ⟨⟩) rfl (.refl _)
  have hroot := hrepeat.run (.addRoot (.mk 2 "repeat" [.literal "input1" "3"] []) 60 60)
    (by rintro _ ⟨⟩) rfl (.refl _)
  have hchild := hroot.run
    (.edit 2 (.pushChild (.mk 1 "print" [.literal "input1" "Hello World!"] []))) (by rintro _ ⟨⟩)
    rfl (.refl _)
  exact ⟨_, _, hchild, by decide, by decide,
    hchild.undone (.snoc .nil (.child rfl) (.intro rfl (.refl _)))⟩

end Desk

end Blockwork
