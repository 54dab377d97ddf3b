import FormExpr.Library.Builtin
import FormExpr.Proofs.Tree.Sort
import Mathlib.Data.List.FinRange

/-!
# Shuffles as rearrangements of places

Whatever the draws are, each of them trades two items of the list, so a shuffle keeps every item as
often as it stands there. The places of a trade do not look at the items: a shuffle commutes with
every change of items, and with a seed it is one rearrangement of places for each length.
-/

namespace FormExpr

namespace Shuffle

variable {α β : Type}

/-! ### One trade -/

theorem swap_perm (xs : Array α) (i j : Nat) : (swap xs i j).toList.Perm xs.toList := by
  rw [swap, Array.swapIfInBounds_def]
  split_ifs with hi hj
  · exact (Array.swap_perm hi hj).toList
  · exact List.Perm.refl _
  · exact List.Perm.refl _

theorem swap_map (f : α → β) (xs : Array α) (i j : Nat) :
    swap (xs.map f) i j = (swap xs i j).map f := by
  unfold swap
  apply Array.ext
  · simp
  · intro k hleft hright
    simp only [Array.getElem_swapIfInBounds, Array.getElem_map, Array.size_map]
    split_ifs <;> rfl

/-! ### All trades -/

/-- Trading places keeps the items. -/
theorem trade_perm (draws : List Float) (last : Nat) (xs : Array α) :
    (trade draws last xs).toList.Perm xs.toList := by
  induction draws generalizing last xs with
  | nil => exact List.Perm.refl _
  | cons draw draws ih =>
    cases last with
    | zero => exact List.Perm.refl _
    | succ last => exact (ih last _).trans (swap_perm xs _ _)

/-- It does not look at them. -/
theorem trade_map (f : α → β) (draws : List Float) (last : Nat) (xs : Array α) :
    trade draws last (xs.map f) = (trade draws last xs).map f := by
  induction draws generalizing last xs with
  | nil => rfl
  | cons draw draws ih =>
    cases last with
    | zero => rfl
    | succ last => rw [trade, trade, swap_map, ih]

/-! ### Shuffles -/

theorem shuffle_perm (draws : List Float) (items : List α) :
    (shuffle draws items).Perm items :=
  trade_perm draws _ items.toArray

theorem shuffle_map (f : α → β) (draws : List Float) (items : List α) :
    shuffle draws (items.map f) = (shuffle draws items).map f := by
  rw [shuffle, shuffle, List.length_map, ← List.map_toArray, trade_map, Array.toList_map]

/-- A seeded shuffle keeps the items. -/
theorem seeded_perm (seed : Float) (items : List α) : (seeded seed items).Perm items :=
  shuffle_perm _ items

/-- And it does not look at them. -/
theorem seeded_map (f : α → β) (seed : Float) (items : List α) :
    seeded seed (items.map f) = (seeded seed items).map f := by
  rw [seeded, seeded, List.length_map, shuffle_map]

/-- With a seed the items are put by the one rearrangement of their places. -/
theorem seeded_eq_map_get (seed : Float) (items : List α) :
    seeded seed items = (seeded seed (List.finRange items.length)).map items.get := by
  rw [← seeded_map, List.map_get_finRange]

end Shuffle

/-! ### Randomized node sets -/

namespace Library

variable {F : Forest} (context : Context F) (environment : Environment) (nodes : List (Node F))

theorem seed_eq_ok (call : Call F) {v : Value F} (hfinite : (v.toNumber call.zone).isFinite = true)
    (hwhole : Binary64.isIntegral (v.toNumber call.zone) = true) :
    seed call v = .ok (v.toNumber call.zone) :=
  if_pos (by rw [hfinite, hwhole, Bool.and_self])

/-- With a whole seed the members are shuffled from document order. -/
theorem call_randomize_seeded {v : Value F}
    (hfinite : (v.toNumber environment.zone).isFinite = true)
    (hwhole : Binary64.isIntegral (v.toNumber environment.zone) = true) :
    Registry.builtin.call "randomize" context environment [.nodeSet nodes, v] =
      .ok (.nodeSet (Shuffle.seeded (v.toNumber environment.zone) (Node.sort nodes))) := by
  have hcall : Registry.builtin.call "randomize" context environment [.nodeSet nodes, v] =
      randomize ⟨"randomize", context, environment⟩ (.nodeSet nodes) (some v) := rfl
  have hseed := seed_eq_ok ⟨"randomize", context, environment⟩ hfinite hwhole
  rw [hcall, randomize]
  simp only [hseed]
  rfl

/-- Without a seed some draws shuffle them. -/
theorem call_randomize_unseeded :
    ∃ draws, Registry.builtin.call "randomize" context environment [.nodeSet nodes] =
      .ok (.nodeSet (Shuffle.shuffle draws (Node.sort nodes))) :=
  ⟨_, rfl⟩

end Library

namespace Shuffle

/-- A shuffle keeps the items, whatever the draws, and a seeded one looks at nothing but the seed
and the number of items. So a node set is randomized with every member as often as it occurs. -/
theorem shuffle_rearranges_places (F : Forest) :
    (∀ (α : Type) (draws : List Float) (items : List α), (shuffle draws items).Perm items) ∧
    (∀ (α : Type) (seed : Float) (items : List α), (seeded seed items).Perm items ∧
      seeded seed items = (seeded seed (List.finRange items.length)).map items.get) ∧
    (∀ (α β : Type) (f : α → β) (seed : Float) (items : List α),
      seeded seed (items.map f) = (seeded seed items).map f) ∧
    (∀ (context : Context F) (environment : Environment) (nodes : List (Node F)),
      (∀ v : Value F, (v.toNumber environment.zone).isFinite = true →
        Binary64.isIntegral (v.toNumber environment.zone) = true →
        ∃ shuffled, Registry.builtin.call "randomize" context environment [.nodeSet nodes, v] =
            .ok (.nodeSet shuffled) ∧
          shuffled.Perm (Node.sort nodes) ∧ ∀ n, shuffled.count n = nodes.count n) ∧
      ∃ shuffled, Registry.builtin.call "randomize" context environment [.nodeSet nodes] =
          .ok (.nodeSet shuffled) ∧
        shuffled.Perm (Node.sort nodes) ∧ ∀ n, shuffled.count n = nodes.count n) := by
  refine ⟨fun α => shuffle_perm, ?_, fun α β => seeded_map, ?_⟩
  · intro α seed items
    exact ⟨seeded_perm seed items, seeded_eq_map_get seed items⟩
  · intro context environment nodes
    have hcount : ∀ {shuffled : List (Node F)}, shuffled.Perm (Node.sort nodes) →
        ∀ n, shuffled.count n = nodes.count n :=
      fun hperm => (hperm.trans (Node.sort_perm nodes)).count_eq
    constructor
    · intro v hfinite hwhole
      have hperm := seeded_perm (v.toNumber environment.zone) (Node.sort nodes)
      exact ⟨_, Library.call_randomize_seeded context environment nodes hfinite hwhole, hperm,
        hcount hperm⟩
    · obtain ⟨draws, hcall⟩ := Library.call_randomize_unseeded context environment nodes
      have hperm := shuffle_perm draws (Node.sort nodes)
      exact ⟨_, hcall, hperm, hcount hperm⟩

/-- A text serves as the seed, and the member given twice is kept twice. -/
theorem shuffle_rearranges_places_twice :
    let t : Tree := .node (.element "a" none) [] [.node (.text "x") [] [], .node (.text "y") [] []]
    let F : Forest := ⟨[t]⟩
    let x : Node F := ⟨0, [0], by decide⟩
    let y : Node F := ⟨0, [1], by decide⟩
    let environment : Environment := .standard (.fixed 0) ⟨0, 0, 0⟩ fun _ => 0
    let seed : Value F := .string " 42 "
    (seed.toNumber (.fixed 0)).isFinite = true ∧
    Binary64.isIntegral (seed.toNumber (.fixed 0)) = true ∧
    ∃ shuffled, Registry.builtin.call "randomize" ⟨none, 1, 1⟩ environment
        [.nodeSet [y, x, y], seed] = .ok (.nodeSet shuffled) ∧ shuffled.count y = 2 := by
  intro t F x y environment seed
  have hfinite : (seed.toNumber (.fixed 0)).isFinite = true := by decide +kernel
  have hwhole : Binary64.isIntegral (seed.toNumber (.fixed 0)) = true := by decide +kernel
  obtain ⟨-, -, -, hrandomize⟩ := shuffle_rearranges_places F
  obtain ⟨shuffled, hcall, -, hcount⟩ :=
    (hrandomize ⟨none, 1, 1⟩ environment [y, x, y]).1 seed hfinite hwhole
  exact ⟨hfinite, hwhole, shuffled, hcall, (hcount y).trans (by decide)⟩

example : seeded 42 "ABCDEF".toList = "BDFECA".toList := by decide +kernel

end Shuffle

end FormExpr
