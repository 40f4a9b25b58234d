import Mathlib
import Blockwork.Proofs.Run.Steps

/-!
# The guard leaves each loop at most once

A turn beyond the limit issues one warning of the guard and ends its loop. The loop around it, whose
children are being taken, begins no further turn without ending in the same way. So each loop is left
by the guard at most once in a walk, and the warnings of the guard are exactly the turns beyond the
limit: `Code.walkAll_trips`, which is the invariant `TripsWithin` taken from the steps to whole
walks.
-/

namespace Blockwork

open Run Run.Walk
open Fragment (guardLimit)

variable {σ ν : Type}

/-- Whether a warning is one of the guard. -/
def IsGuardText (text : String) : Prop :=
  text = guardText "repeat" ∨ text = guardText "forever"

instance (text : String) : Decidable (IsGuardText text) :=
  inferInstanceAs (Decidable (_ ∨ _))

/-- The labels of the loops that the guard has left, in their order. -/
def trips (warnings : List (String × ν)) : List ν :=
  (warnings.filter (IsGuardText ·.1)).map Prod.snd

theorem trips_append (ws vs : List (String × ν)) : trips (ws ++ vs) = trips ws ++ trips vs := by
  unfold trips
  rw [List.filter_append, List.map_append]

theorem trips_guard (header : Header) (label : ν) :
    trips [(guardText header.name, label)] = [label] := by
  have h : IsGuardText (guardText header.name) := by
    cases header
    · exact Or.inl rfl
    · exact Or.inr rfl
  simp [trips, h]

theorem head_guardText (name : String) : (guardText name).toList.head? = some 'L' := by
  unfold guardText
  rw [String.toList_append]
  simp

/-- The warnings of a sprite begin with another letter. -/
theorem not_isGuardText_of_head {text : String} (h : text.toList.head? = some 'C') :
    ¬ IsGuardText text := by
  have hne : ∀ name, text ≠ guardText name := by
    intro name he
    rw [he, head_guardText] at h
    exact absurd h (by decide)
  exact fun hguard => hguard.elim (hne "repeat") (hne "forever")

theorem trips_other {text : String} (h : text.toList.head? = some 'C') (label : ν) :
    trips [(text, label)] = [] := by
  simp [trips, not_isGuardText_of_head h]

/-- **The invariant of the guard.** The guard has left some of the given loops, each once, and each
time because of one turn beyond the limit. -/
def TripsWithin (loops : List ν) (w w' : Walked σ ν) : Prop :=
  ∃ new, w'.warnings = w.warnings ++ new ∧
    (trips new).length + (w.turns - guardLimit) = w'.turns - guardLimit ∧
    (∀ l ∈ trips new, l ∈ loops) ∧ (trips new).Nodup

namespace TripsWithin

variable {loops loops' : List ν} {u v w : Walked σ ν}

theorem of_eq {new : List (String × ν)} (hw : v.warnings = u.warnings ++ new)
    (ht : v.turns = u.turns) (hn : trips new = []) : TripsWithin [] u v :=
  ⟨new, hw, by rw [hn, ht]; exact Nat.zero_add _, by rw [hn]; simp,
    by rw [hn]; exact List.nodup_nil⟩

theorem refl (w : Walked σ ν) : TripsWithin [] w w :=
  of_eq (List.append_nil _).symm rfl rfl

theorem weaken (h : TripsWithin loops u v) (hl : ∀ l ∈ loops, l ∈ loops') :
    TripsWithin loops' u v := by
  obtain ⟨new, hw, ht, hin, hnodup⟩ := h
  exact ⟨new, hw, ht, fun l hmem => hl l (hin l hmem), hnodup⟩

theorem trans (h₁ : TripsWithin loops u v) (h₂ : TripsWithin loops' v w)
    (hd : List.Disjoint loops loops') : TripsWithin (loops ++ loops') u w := by
  obtain ⟨new₁, hw₁, ht₁, hin₁, hnodup₁⟩ := h₁
  obtain ⟨new₂, hw₂, ht₂, hin₂, hnodup₂⟩ := h₂
  refine ⟨new₁ ++ new₂, by rw [hw₂, hw₁, List.append_assoc], ?_, ?_, ?_⟩
  · rw [trips_append, List.length_append]
    omega
  · intro l hl
    rw [trips_append, List.mem_append] at hl
    exact List.mem_append.mpr (hl.imp (hin₁ l) (hin₂ l))
  · rw [trips_append]
    exact hnodup₁.append hnodup₂ fun l hl₁ hl₂ => hd (hin₁ l hl₁) (hin₂ l hl₂)

/-- Without a turn beyond the limit the guard has left no loop. -/
theorem of_turns_le (h : TripsWithin loops u v) (hv : v.turns ≤ guardLimit) :
    TripsWithin [] u v := by
  obtain ⟨new, hw, ht, hin, hnodup⟩ := h
  have hnil : trips new = [] := List.length_eq_zero_iff.mp (by omega)
  exact ⟨new, hw, ht, by rw [hnil]; simp, hnodup⟩

/-- Turns below the limit make no difference to where the count begins. -/
theorem of_start (h : TripsWithin loops u v) (hw : u.warnings = w.warnings)
    (hu : u.turns ≤ guardLimit) (hw' : w.turns ≤ guardLimit) : TripsWithin loops w v := by
  obtain ⟨new, hv, ht, hin, hnodup⟩ := h
  exact ⟨new, by rw [hv, hw], by omega, hin, hnodup⟩

end TripsWithin

/-! ### The steps -/

theorem tripsWithin_verb (world : World σ) (verb : Verb) (label : ν) (argument : String)
    (w : Walked σ ν) : TripsWithin [] w (outcome (verb.walk world label argument) w).2 := by
  have hask : ∀ {α : Type} (request : σ → Except String α × σ),
      TripsWithin [] w (outcome (ask label request) w).2 := by
    intro α request
    rw [Walk.outcome_ask]
    rcases request w.host with ⟨_ | _, host⟩ <;>
      exact TripsWithin.of_eq (List.append_nil _).symm rfl rfl
  cases verb with
  | drawSprite =>
    change TripsWithin [] w (outcome (sprite world label argument) w).2
    rw [outcome_sprite]
    split
    · -- a missing costume gives a warning too, but not one of a guard
      refine TripsWithin.of_eq rfl rfl (trips_other ?_ label)
      change ("Costume not found: " ++ argument).toList.head? = some 'C'
      simp
    · split
      · exact TripsWithin.of_eq rfl rfl (trips_other (by simp) label)
      · exact TripsWithin.of_eq (List.append_nil _).symm rfl rfl
  | _ => exact hask _

/-- A turn beyond the limit. -/
theorem tripsWithin_trip (host : Host σ) (header : Header) (label : ν) {w : Walked σ ν}
    (h : guardLimit < w.turns + 1) :
    TripsWithin [label] w (outcome (enter host label header.name) w).2 := by
  rw [outcome_enter_trip _ _ _ h]
  refine ⟨[(guardText header.name, label)], rfl, ?_, ?_, ?_⟩
  · rw [trips_guard, List.length_singleton]
    dsimp only
    omega
  · rw [trips_guard]
    exact fun l hl => hl
  · rw [trips_guard]
    exact List.nodup_singleton label

/-! ### Loops -/

/-- **A loop** is left by the guard at most once, and the loops inside it too. Once the limit has
been reached, the guard leaves nothing but this loop. -/
theorem tripsWithin_loop {host : Host σ} {header : Header} {label : ν} {loops : List ν}
    {body : Walk σ ν Unit} (hbody : ∀ w, TripsWithin loops w (outcome body w).2)
    (hlabel : label ∉ loops) (n : Nat) (w : Walked σ ν) :
    TripsWithin (label :: loops) w
        (outcome (loop (enter host label header.name) body n) w).2 ∧
      (guardLimit ≤ w.turns → TripsWithin [label] w
        (outcome (loop (enter host label header.name) body n) w).2) := by
  induction n generalizing w with
  | zero =>
    have hrefl := TripsWithin.refl w
    exact ⟨hrefl.weaken (by simp), fun _ => hrefl.weaken (by simp)⟩
  | succ n ih =>
    rw [loop, outcome_bind]
    -- a turn that the guard leaves is the last one, and the only trip that this loop makes
    by_cases h : guardLimit < w.turns + 1
    · have htrip := tripsWithin_trip host header label h
      rw [outcome_enter_trip _ _ _ h] at htrip ⊢
      exact ⟨htrip.weaken (by simp), fun _ => htrip⟩
    · refine ⟨?_, fun hge => absurd hge (by omega)⟩
      rw [outcome_enter_pass _ _ _ h]
      dsimp only
      rw [if_pos rfl, outcome_bind]
      have hlow : w.turns ≤ guardLimit := by omega
      have hpass : ({ w with turns := w.turns + 1, passed := w.passed + 1 } : Walked σ ν).turns
          ≤ guardLimit := Nat.le_of_not_lt h
      have hfirst := hbody { w with turns := w.turns + 1, passed := w.passed + 1 }
      rcases hv : outcome body { w with turns := w.turns + 1, passed := w.passed + 1 } with
        ⟨_ | _, v⟩
      · rw [hv] at hfirst
        have hstart : TripsWithin loops w v := hfirst.of_start rfl hpass hlow
        exact hstart.weaken fun l hl => List.mem_cons_of_mem label hl
      · rw [hv] at hfirst
        have hstart : TripsWithin loops w v := hfirst.of_start rfl hpass hlow
        obtain ⟨hall, hlast⟩ := ih v
        rcases Nat.lt_or_ge v.turns guardLimit with hlt | hge
        · -- no loop inside has been left, so the remaining turns may still leave any of them
          exact (hstart.of_turns_le hlt.le).trans hall (List.disjoint_nil_left _)
        · -- the limit has been reached inside, so of the remaining turns only this loop can be left
          have hdisjoint : List.Disjoint loops [label] :=
            List.disjoint_singleton.mpr hlabel
          refine (hstart.trans (hlast hge) hdisjoint).weaken fun l hl => ?_
          rcases List.mem_append.mp hl with hl | hl
          · exact List.mem_cons_of_mem label hl
          · exact List.mem_cons.mpr (Or.inl (List.mem_singleton.mp hl))

/-! ### Walks -/

namespace Code

variable {world : World σ} {bound : Nat}

theorem walkAll_trips_of {cs : List (Code ν)}
    (h : ∀ c ∈ cs, c.loops.Nodup → ∀ w : Walked σ ν,
      TripsWithin c.loops w (outcome (c.walk world bound) w).2)
    (hnodup : (loopsAll cs).Nodup) (w : Walked σ ν) :
    TripsWithin (loopsAll cs) w (outcome (walkAll world bound cs) w).2 := by
  induction cs generalizing w with
  | nil => exact TripsWithin.refl w
  | cons c cs ih =>
    rw [loopsAll, List.nodup_append'] at hnodup
    obtain ⟨hc, hcs, hdisjoint⟩ := hnodup
    have hfirst := h c List.mem_cons_self hc w
    rw [walkAll, loopsAll, outcome_bind]
    rcases hv : outcome (c.walk world bound) w with ⟨_ | _, v⟩
    · rw [hv] at hfirst
      exact hfirst.weaken fun l hl => List.mem_append_left _ hl
    · rw [hv] at hfirst
      exact hfirst.trans (ih (fun d hd => h d (List.mem_cons_of_mem c hd)) hcs v) hdisjoint

/-- **The guard leaves each loop at most once** in a walk, and its warnings are the turns beyond the
limit. -/
theorem walk_trips (c : Code ν) (hnodup : c.loops.Nodup) (w : Walked σ ν) :
    TripsWithin c.loops w (outcome (c.walk world bound) w).2 := by
  induction c using Code.induction generalizing w with
  | call label verb argument => exact tripsWithin_verb world verb label argument w
  | loop label header body ih =>
    obtain ⟨hlabel, hbody⟩ := List.nodup_cons.mp hnodup
    exact (tripsWithin_loop (walkAll_trips_of ih hbody) hlabel _ w).1

theorem walkAll_trips (cs : List (Code ν)) (hnodup : (loopsAll cs).Nodup) (w : Walked σ ν) :
    TripsWithin (loopsAll cs) w (outcome (walkAll world bound cs) w).2 :=
  walkAll_trips_of (fun c _ => walk_trips c) hnodup w

end Code

end Blockwork
