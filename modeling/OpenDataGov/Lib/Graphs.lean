import Mathlib.Data.Set.Function
import Mathlib.Logic.Relation

/-!
# Graphs under other names

A graph whose nodes go by other names has an edge between two names if there is one between nodes
with these names (`Relation.Map`). No path is lost (`transGen_map`). There are others, through
nodes with the same name, unless the nodes that occur have different ones (`transGen_map_iff`).
-/

namespace Images

open Relation Set

variable {α β : Type} {r : α → α → Prop} {f : α → β} {U : Set α} {a b : α} {y : β}

/-- All nodes with an edge are in `U`. -/
def Within (r : α → α → Prop) (U : Set α) : Prop := ∀ a b, r a b → a ∈ U ∧ b ∈ U

/-- A path is one under the other names, -/
theorem transGen_map (h : TransGen r a b) : TransGen (Relation.Map r f f) (f a) (f b) :=
  TransGen.lift f (fun a b hr => ⟨a, b, hr, rfl, rfl⟩) _ _ h

/-- A path of names is one of nodes, if no name is that of two nodes. -/
theorem exists_of_transGen_map (hU : Within r U) (hf : InjOn f U) (ha : a ∈ U)
    (h : TransGen (Relation.Map r f f) (f a) y) : ∃ b ∈ U, f b = y ∧ TransGen r a b := by
  induction h with
  | single h =>
    obtain ⟨a', b, hr, hfa, rfl⟩ := h
    obtain ⟨ha', hb⟩ := hU a' b hr
    obtain rfl := hf ha' ha hfa
    exact ⟨b, hb, rfl, .single hr⟩
  | tail _ h ih =>
    obtain ⟨b, hb, rfl, hpath⟩ := ih
    obtain ⟨b', c, hr, hfb, rfl⟩ := h
    obtain ⟨hb', hc⟩ := hU b' c hr
    obtain rfl := hf hb' hb hfb
    exact ⟨c, hc, rfl, hpath.tail hr⟩

/-- and a path between other names is one between the nodes with these names. -/
theorem transGen_map_iff (hU : Within r U) (hf : InjOn f U) (ha : a ∈ U) (hb : b ∈ U) :
    TransGen (Relation.Map r f f) (f a) (f b) ↔ TransGen r a b := by
  refine ⟨fun h => ?_, transGen_map⟩
  obtain ⟨b', hb', hfb, hpath⟩ := exists_of_transGen_map hU hf ha h
  exact hf hb' hb hfb ▸ hpath

/-- There are cycles of names only where there are cycles of nodes. -/
theorem exists_cycle_map_iff (hU : Within r U) (hf : InjOn f U) :
    (∃ y, TransGen (Relation.Map r f f) y y) ↔ ∃ a, TransGen r a a := by
  constructor
  · rintro ⟨y, h⟩
    obtain ⟨_, ⟨a, b, hr, rfl, -⟩, -⟩ := TransGen.head'_iff.1 h
    have ha := (hU a b hr).1
    exact ⟨a, (transGen_map_iff hU hf ha ha).1 h⟩
  · rintro ⟨a, h⟩
    exact ⟨f a, transGen_map h⟩

end Images
