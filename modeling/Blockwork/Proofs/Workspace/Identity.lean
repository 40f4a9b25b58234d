import Mathlib
import Blockwork.Proofs.Workspace.Desk

/-!
# Identifiers stay apart

As long as no block is copied or made by hand, no two blocks on a desk have one identifier, and none
has one that is still to be handed out (`Desk.Distinct`). A step may destroy blocks, but whatever
identifiers there are after it were there before or are the next ones of the workspace
(`Operation.renews`, `Desk.Move.renews`). What follows for the blocks that can be found is said by
`Desk.distinct_of_unduplicated`.
-/

namespace Blockwork

open scoped List
open Snapshot (Consecutive)

/-! ### Identifiers of roots -/

section Roots

variable {ι : Type}

/-- The identifiers in the trees of roots. -/
def Root.idsAll (roots : List (Root ι)) : List ι :=
  Block.idsAll (roots.map Root.block)

@[simp] theorem Root.idsAll_append (roots roots' : List (Root ι)) :
    idsAll (roots ++ roots') = idsAll roots ++ idsAll roots' := by
  unfold idsAll
  rw [List.map_append, Block.idsAll_append]

@[simp] theorem Root.idsAll_cons (root : Root ι) (roots : List (Root ι)) :
    idsAll (root :: roots) = root.block.ids ++ idsAll roots := rfl

@[simp] theorem Root.idsAll_nil : idsAll ([] : List (Root ι)) = [] := rfl

/-- The identifiers around a site. -/
def Site.ids (s : Site ι) : List ι :=
  s.place.ids ++ (Root.idsAll s.before ++ Root.idsAll s.after)

/-- **The identifiers of a filled site** are those of the block and those around it. -/
theorem Site.ids_fill (s : Site ι) (b : Block ι) : Root.idsAll (s.fill b) ~ b.ids ++ s.ids := by
  unfold Site.fill Site.ids
  rw [Root.idsAll_append, Root.idsAll_cons]
  have hplace : (s.place.fill b).ids ~ b.ids ++ s.place.ids := s.place.ids_fill b
  rw [← List.append_assoc, ← List.append_assoc, ← List.append_assoc]
  refine List.Perm.append_right _ ?_
  exact List.perm_append_comm.trans (hplace.append_right _)

end Roots

/-- **The blocks that are found** are those whose identifiers the workspace has. -/
theorem Workspace.find?_isSome {ws : Workspace} {id : BlockId} :
    (ws.find? id).isSome = true ↔ id ∈ ws.ids := by
  unfold find? ids
  rw [List.findSome?_isSome_iff, List.mem_flatMap]
  simp only [Block.find?_isSome]

/-! ### What an operation does with identifiers -/

/-- Afterwards there are no identifiers but those from before and the next ones of the workspace. -/
structure Renews (n m : Nat) (before after : List Nat) : Prop where
  le : n ≤ m
  subperm : after <+~ List.range' n (m - n) ++ before

/-- No new identifiers. -/
theorem Renews.of_subperm {n : Nat} {before after : List Nat} (h : after <+~ before) :
    Renews n n before after := by
  refine ⟨le_rfl, ?_⟩
  rw [Nat.sub_self, List.range'_zero]
  exact h

theorem Renews.of_consecutive {n m : Nat} {before after : List Nat}
    (h : Consecutive n m after) : Renews n m before after := by
  obtain ⟨hle, rfl⟩ := h
  exact ⟨hle, (List.sublist_append_left _ _).subperm⟩

/-- What nobody touches may stand on both sides. -/
theorem Renews.append_right {n m : Nat} {before after : List Nat} (h : Renews n m before after)
    (rest : List Nat) : Renews n m (before ++ rest) (after ++ rest) := by
  refine ⟨h.le, ?_⟩
  rw [← List.append_assoc]
  exact (List.subperm_append_right rest).mpr h.subperm

theorem Renews.trans_subperm {n m : Nat} {before before' after : List Nat}
    (h : Renews n m before after) (hbefore : before <+~ before') : Renews n m before' after :=
  ⟨h.le, h.subperm.trans ((List.subperm_append_left _).mpr hbefore)⟩

namespace Operation

variable {ws ws' : Workspace}

theorem remove_perm {id : BlockId} {found : PlacedBlock} (h : ws.remove id = .ok (found, ws')) :
    ws'.ids ++ found.ids ~ ws.ids ∧ ws'.nextId = ws.nextId := by
  obtain ⟨before, root, rest, after, hroots, rfl, hcase⟩ := Workspace.remove_ok h
  refine ⟨?_, rfl⟩
  have hrest : root.block.ids ~ found.ids ++ Root.idsAll rest := by
    rcases hcase with ⟨rfl, rfl⟩ | ⟨block, rfl, hdetached⟩
    · rw [Root.idsAll_nil, List.append_nil]
    · rw [Root.idsAll_cons, Root.idsAll_nil, List.append_nil]
      exact hdetached.ids_perm
  change Root.idsAll (before ++ (rest ++ after)) ++ found.ids ~ Root.idsAll ws.roots
  rw [hroots, List.perm_iff_count]
  intro i
  have hcount := hrest.count_eq i
  simp only [Root.idsAll_append, Root.idsAll_cons, List.count_append] at hcount ⊢
  omega

theorem edit_subperm {id : BlockId} {e : Edit} {given : List PlacedBlock}
    (h : e.ofPlaced ws id = .ok (ws', given)) :
    ws'.ids ++ Block.idsAll given <+~ ws.ids ++ Block.idsAll e.taken ∧ ws'.nextId = ws.nextId := by
  obtain ⟨s, b, b', hroots, hedit, rfl, -⟩ := Edit.ofPlaced_ok h
  refine ⟨?_, rfl⟩
  change Root.idsAll (s.fill b') ++ _ <+~ Root.idsAll ws.roots ++ _
  rw [hroots, List.subperm_ext_iff]
  intro i _
  have hbefore := (s.ids_fill b).count_eq i
  have hafter := (s.ids_fill b').count_eq i
  have hedited := (Edit.conserves hedit).count_le i
  simp only [List.count_append] at hbefore hafter hedited ⊢
  omega

theorem instantiate_perm (ws : Workspace) (type : String) :
    (ws.instantiate type).2.ids ++ (ws.instantiate type).1.ids ~ ws.nextId :: ws.ids := by
  have hids : (ws.instantiate type).1.ids = [ws.nextId] := by
    rw [Block.ids_eq, ws.parts_instantiate type]
    rfl
  rw [hids]
  exact List.perm_append_singleton ws.nextId ws.ids

/-- **An operation keeps identifiers apart**: those of the workspace and of what is handed out were
there before or are new. -/
theorem renews {op : Operation} {given : List PlacedBlock} (h : op.Ran ws ws' given) :
    Renews ws.nextId ws'.nextId (ws.ids ++ Block.idsAll op.taken)
      (ws'.ids ++ Block.idsAll given) := by
  -- operations that hand nothing out add no identifiers
  have hnone : ∀ {xs : List Nat}, xs ++ Block.idsAll ([] : List PlacedBlock) = xs :=
    List.append_nil _
  cases h with
  | instantiate type =>
    refine ⟨Nat.le_succ _, ?_⟩
    change _ <+~ List.range' ws.nextId (ws.nextId + 1 - ws.nextId) ++ _
    rw [Nat.add_sub_cancel_left, List.range'_one, Block.idsAll_cons, Block.idsAll_nil,
      List.append_nil]
    exact (instantiate_perm ws type).subperm.trans (List.sublist_append_left _ []).subperm
  | @addRoot b x y ws' hok =>
    obtain ⟨-, rfl⟩ := Workspace.addRoot_ok hok
    refine .of_subperm ?_
    change Root.idsAll (ws.roots ++ _) ++ [] <+~ Root.idsAll ws.roots ++ _
    rw [Root.idsAll_append, List.append_nil]
    exact .refl _
  | @moveRoot id x y ws' hok =>
    obtain ⟨before, root, after, hroots, rfl⟩ := Workspace.moveRoot_ok hok
    refine .of_subperm ?_
    change Root.idsAll _ ++ [] <+~ Root.idsAll ws.roots ++ []
    rw [hroots, Root.idsAll_append, Root.idsAll_append]
    exact .refl _
  | @remove id b ws' hok =>
    obtain ⟨hperm, hnext⟩ := remove_perm hok
    rw [hnext]
    refine .of_subperm ?_
    rw [Block.idsAll_cons, Block.idsAll_nil, List.append_nil]
    exact hperm.subperm.trans (List.sublist_append_left _ _).subperm
  | edit hok =>
    obtain ⟨hsubperm, hnext⟩ := edit_subperm hok
    rw [hnext]
    exact .of_subperm hsubperm
  | clear => exact .of_subperm (List.nil_subperm)
  | setAssets assets => exact .of_subperm (.refl _)
  | restore _ hok =>
    refine .of_consecutive ?_
    rw [hnone]
    exact Workspace.consecutive_of_restore hok

end Operation

/-! ### Desks without copies -/

namespace Desk

variable {r : Registry} {d d' : Desk}

/-- All identifiers on a desk. -/
def ids (d : Desk) : List BlockId :=
  d.workspace.ids ++ Block.idsAll d.hand

/-- **The invariant of identifiers.** -/
structure Distinct (d : Desk) : Prop where
  nodup : d.ids.Nodup
  lt_next : ∀ i ∈ d.ids, i < d.workspace.nextId

theorem Distinct.of_renews (h : d.Distinct)
    (hrenews : Renews d.workspace.nextId d'.workspace.nextId d.ids d'.ids) : d'.Distinct := by
  obtain ⟨hle, new, hperm, hsub⟩ := hrenews
  have hall : (List.range' d.workspace.nextId (d'.workspace.nextId - d.workspace.nextId)
      ++ d.ids).Nodup := by
    have hnew : (List.range' d.workspace.nextId (d'.workspace.nextId - d.workspace.nextId)).Nodup :=
      List.nodup_range'
    refine hnew.append h.nodup fun i hi hold => ?_
    -- what is handed out next is beyond all that has been handed out
    exact absurd (h.lt_next i hold) (Nat.not_lt.mpr (List.mem_range'_1.mp hi).1)
  refine ⟨hperm.nodup_iff.mp (hsub.nodup hall), fun i hi => ?_⟩
  rcases List.mem_append.mp (hsub.subset (hperm.mem_iff.mpr hi)) with hi | hi
  · have hlt := (List.mem_range'_1.mp hi).2
    rwa [Nat.add_sub_of_le hle] at hlt
  · exact (h.lt_next i hi).trans_le hle

theorem idsAll_perm {hand taken rest : List PlacedBlock} (h : hand ~ taken ++ rest) :
    Block.idsAll hand ~ Block.idsAll taken ++ Block.idsAll rest := by
  rw [← Block.idsAll_append]
  exact h.flatMap_right Block.ids

theorem idsAll_perm_cons {hand rest : List PlacedBlock} {b : PlacedBlock} (h : hand ~ b :: rest) :
    Block.idsAll hand ~ b.ids ++ Block.idsAll rest :=
  h.flatMap_right Block.ids

/-- **A step keeps identifiers apart.** -/
theorem Move.renews (h : Move d d') :
    Renews d.workspace.nextId d'.workspace.nextId d.ids d'.ids := by
  cases h with
  | @run ws ws' hand given rest op hok hperm =>
    -- what stays in the hand is the same on both sides
    have hop := (Operation.renews (Operation.ran_of_run? hok)).append_right (Block.idsAll rest)
    unfold ids
    rw [Block.idsAll_append, ← List.append_assoc]
    refine hop.trans_subperm ?_
    rw [List.append_assoc]
    exact ((idsAll_perm hperm).symm.append_left ws.ids).subperm
  | @runFails ws hand rest op hfails hperm =>
    rw [Operation.after_of_fails hfails]
    refine .of_subperm ((List.subperm_append_left ws.ids).mpr ?_)
    exact (List.sublist_append_right _ _).subperm.trans (idsAll_perm hperm).symm.subperm
  | @edit ws hand given rest b b' e hok hperm =>
    refine .of_subperm ((List.subperm_append_left ws.ids).mpr ?_)
    refine List.Subperm.trans ?_ (idsAll_perm_cons hperm).symm.subperm
    have hedit := Edit.conserves hok
    rw [Block.idsAll_cons, Block.idsAll_append, Block.idsAll_append, ← List.append_assoc,
      ← List.append_assoc]
    exact (List.subperm_append_right _).mpr hedit
  | @editFails ws hand rest b e problem hfails hperm =>
    rw [Edit.acting_of_fails hfails]
    refine .of_subperm ((List.subperm_append_left ws.ids).mpr ?_)
    refine List.Subperm.trans ?_ (idsAll_perm_cons hperm).symm.subperm
    rw [Block.idsAll_cons, Block.idsAll_append]
    exact (List.subperm_append_left _).mpr (List.sublist_append_right _ _).subperm
  | @detach ws hand rest b b' found id hdetach hperm =>
    refine .of_subperm ((List.subperm_append_left ws.ids).mpr ?_)
    refine List.Subperm.trans ?_ (idsAll_perm_cons hperm).symm.subperm
    have hids := (Block.detached_of_detach? hdetach).ids_perm
    rw [Block.idsAll_cons, Block.idsAll_cons, ← List.append_assoc]
    exact (hids.symm.append_right _).subperm
  | @drop ws hand rest b hperm =>
    refine .of_subperm ((List.subperm_append_left ws.ids).mpr ?_)
    exact (List.sublist_append_right _ _).subperm.trans (idsAll_perm_cons hperm).symm.subperm

theorem distinct_empty (r : Registry) : (empty r).Distinct :=
  ⟨List.nodup_nil, List.forall_mem_nil _⟩

/-- **All that can be reached without copies is distinct.** -/
theorem Unduplicated.distinct (h : Unduplicated r d) : d.Distinct := by
  induction h with
  | refl => exact distinct_empty r
  | tail _ hmove ih => exact ih.of_renews hmove.renews

/-- There are as many placed blocks as identifiers that are found. -/
theorem Distinct.encard_found (h : d.Distinct) :
    {i | (d.workspace.find? i).isSome = true}.encard = d.workspace.blockCount := by
  have hnodup : d.workspace.ids.Nodup := h.nodup.of_append_left
  have hset : {i | (d.workspace.find? i).isSome = true} = ↑d.workspace.ids.toFinset := by
    ext i
    rw [Set.mem_ofPred_eq, Workspace.find?_isSome, Finset.mem_coe, List.mem_toFinset]
  rw [hset, Set.encard_coe_eq_coe_finsetCard, List.toFinset_card_of_nodup hnodup,
    Workspace.length_ids]

/-- What has just been made is not in the workspace. -/
theorem Distinct.find?_instantiate (h : d.Distinct) (type : String) :
    (d.workspace.instantiate type).2.find? (d.workspace.instantiate type).1.id = none := by
  rw [← Option.not_isSome_iff_eq_none, Workspace.find?_isSome]
  intro hmem
  exact absurd (h.lt_next _ (List.mem_append_left _ hmem)) (Nat.lt_irrefl _)

/-- **Identifiers stay apart, whatever is done.** They are all different and have all been handed
out; so there are as many placed blocks as identifiers that are found, and a new block is not found
in the workspace. -/
theorem distinct_of_unduplicated (h : Unduplicated r d) :
    (d.workspace.ids ++ Block.idsAll d.hand).Nodup ∧
    (∀ i ∈ d.workspace.ids ++ Block.idsAll d.hand, i < d.workspace.nextId) ∧
    {i | (d.workspace.find? i).isSome = true}.encard = d.workspace.blockCount ∧
    ∀ type, (d.workspace.instantiate type).2.find? (d.workspace.instantiate type).1.id = none :=
  ⟨h.distinct.nodup, h.distinct.lt_next, h.distinct.encard_found, h.distinct.find?_instantiate⟩

/-- A block that is taken out again leaves its identifier unused. -/
theorem distinct_of_unduplicated_remove :
    ∃ d : Desk, Unduplicated .standard d ∧ d.workspace.ids = [1] ∧ Block.idsAll d.hand = [2] ∧
      d.workspace.nextId = 3 ∧
      {i | (d.workspace.find? i).isSome = true}.encard = d.workspace.blockCount := by
  have hnone : Unduplicated .standard (empty .standard) := .refl
  have hrepeat := hnone.run (.instantiate "repeat") rfl (.refl _)
  have hroot := hrepeat.run (.addRoot (.mk 1 "repeat" [.literal "input1" "3"] []) 60 60) rfl
    (.refl _)
  have hprint := hroot.run (.instantiate "print") rfl (.refl _)
  have hchild := hprint.run
    (.edit 1 (.pushChild (.mk 2 "print" [.literal "input1" "Hello World!"] []))) rfl (.refl _)
  have hremoved := hchild.run (.remove 2) rfl (.refl _)
  exact ⟨_, hremoved, by decide, by decide, rfl, (distinct_of_unduplicated hremoved).2.2.1⟩

end Desk

end Blockwork
