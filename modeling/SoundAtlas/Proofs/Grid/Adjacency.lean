import Mathlib.Tactic.Lemma
import Mathlib.Data.Int.Order.Basic
import Mathlib.Logic.Relation
import SoundAtlas.Grid

/-!
Cells and their positions: every cell has its own position on the grid, cells are numbered row by
row, lying beside each other is symmetric, and step by step every position leads to every other.
-/

namespace SoundAtlas.Grid

variable {g : Grid}

lemma width_pos (c : g.Cell) : 0 < g.width := by
  rcases Nat.eq_zero_or_pos g.width with h | h
  · have := c.isLt
    simp [size, h] at this
  · exact h

lemma contains_position (c : g.Cell) : g.Contains (g.position c) := by
  have hx : c.val % g.width < g.width := Nat.mod_lt _ (width_pos c)
  have hy : c.val / g.width < g.height := Nat.div_lt_of_lt_mul c.isLt
  exact ⟨⟨Int.natCast_nonneg _, Int.ofNat_lt.2 hx⟩, Int.natCast_nonneg _, Int.ofNat_lt.2 hy⟩

lemma cell?_position (c : g.Cell) : g.cell? (g.position c) = some c := by
  unfold cell?
  rw [dif_pos (contains_position c)]
  refine congrArg some (Fin.ext ?_)
  simp only [cellAt, position, Int.toNat_natCast]
  exact Nat.div_add_mod' c.val g.width

lemma position_of_cell? {p : Position} {c : g.Cell} (h : g.cell? p = some c) :
    g.position c = p := by
  unfold cell? at h
  split at h
  · rename_i hp
    obtain ⟨⟨hx, hw⟩, hy, hh⟩ := hp
    cases h
    have hw' : p.x.toNat < g.width := by omega
    have hm : (p.y.toNat * g.width + p.x.toNat) % g.width = p.x.toNat := by
      rw [Nat.mul_add_mod_self_right, Nat.mod_eq_of_lt hw']
    have hd : (p.y.toNat * g.width + p.x.toNat) / g.width = p.y.toNat := by
      rw [Nat.mul_comm, Nat.mul_add_div (by omega), Nat.div_eq_of_lt hw', Nat.add_zero]
    obtain ⟨x, y⟩ := p
    simp only [position, cellAt, hm, hd, Position.mk.injEq] at hx hy ⊢
    omega
  · simp at h

lemma cell?_eq_some {p : Position} {c : g.Cell} : g.cell? p = some c ↔ g.position c = p :=
  ⟨position_of_cell?, fun h => h ▸ cell?_position c⟩

lemma position_injective : Function.Injective g.position := fun c d h => by
  have := cell?_position c
  rw [h, cell?_position d] at this
  exact (Option.some.inj this).symm

lemma exists_position {p : Position} (h : g.Contains p) : ∃ c, g.position c = p := by
  obtain ⟨c, hc⟩ : ∃ c, g.cell? p = some c := by
    unfold cell?
    rw [dif_pos h]
    exact ⟨_, rfl⟩
  exact ⟨c, position_of_cell? hc⟩

lemma mem_cellsBeside {c d : g.Cell} :
    d ∈ g.cellsBeside c ↔ g.position d ∈ (g.position c).around := by
  simp only [cellsBeside, cellsAround, List.mem_filterMap, cell?_eq_some]
  exact ⟨fun ⟨p, hp, h⟩ => h ▸ hp, fun h => ⟨_, h, rfl⟩⟩

lemma mem_around_comm {p q : Position} : p ∈ q.around ↔ q ∈ p.around := by
  obtain ⟨x, y⟩ := p
  obtain ⟨x', y'⟩ := q
  simp only [Position.around, List.mem_cons, Position.mk.injEq, List.not_mem_nil, or_false]
  omega

lemma mem_cellsBeside_comm {c d : g.Cell} : d ∈ g.cellsBeside c ↔ c ∈ g.cellsBeside d := by
  rw [mem_cellsBeside, mem_cellsBeside, mem_around_comm]

lemma mem_neighbors {p q : Position} : q ∈ g.neighbors p ↔ q ∈ p.around ∧ g.Contains q := by
  rw [neighbors, List.mem_filter, decide_eq_true_eq]

lemma exists_closer {p q : Position} (hp : g.Contains p) (hq : g.Contains q) (hne : p ≠ q) :
    ∃ r ∈ g.neighbors p,
      (r.x - q.x).natAbs + (r.y - q.y).natAbs < (p.x - q.x).natAbs + (p.y - q.y).natAbs := by
  obtain ⟨⟨hpx, hpw⟩, hpy, hph⟩ := hp
  obtain ⟨⟨hqx, hqw⟩, hqy, hqh⟩ := hq
  have hxy : p.x ≠ q.x ∨ p.y ≠ q.y := by
    rw [← not_and_or]
    rintro ⟨hx, hy⟩
    exact hne (by cases p; cases q; simp_all)
  simp only [mem_neighbors, Position.around, List.mem_cons, List.not_mem_nil, or_false]
  rcases lt_trichotomy p.x q.x with hx | hx | hx
  · exact ⟨⟨p.x + 1, p.y⟩, ⟨by simp, ⟨by simp only; omega, hpy, hph⟩⟩, by simp only; omega⟩
  · rcases lt_or_gt_of_ne (hxy.resolve_left (not_not.2 hx)) with hy | hy
    · exact ⟨⟨p.x, p.y + 1⟩, ⟨by simp, ⟨hpx, hpw⟩, by simp only; omega⟩, by simp only; omega⟩
    · exact ⟨⟨p.x, p.y - 1⟩, ⟨by simp, ⟨hpx, hpw⟩, by simp only; omega⟩, by simp only; omega⟩
  · exact ⟨⟨p.x - 1, p.y⟩, ⟨by simp, ⟨by simp only; omega, hpy, hph⟩⟩, by simp only; omega⟩

/-- **Step by step every position leads to every other.** -/
lemma connected {p q : Position} (hp : g.Contains p) (hq : g.Contains q) :
    Relation.ReflTransGen (fun a b => b ∈ g.neighbors a) p q := by
  -- by induction on the number of steps that are needed
  induction hd : (p.x - q.x).natAbs + (p.y - q.y).natAbs using Nat.strongRecOn
    generalizing p with
  | ind d ih =>
    by_cases heq : p = q
    · rw [heq]
    · obtain ⟨r, hr, hlt⟩ := exists_closer hp hq heq
      exact (ih _ (hd ▸ hlt) (mem_neighbors.1 hr).2 rfl).head hr

lemma lt_iff_position {c d : g.Cell} : c < d ↔
    (g.position c).y < (g.position d).y ∨
      (g.position c).y = (g.position d).y ∧ (g.position c).x < (g.position d).x := by
  have hc := Nat.div_add_mod c.val g.width
  have hd := Nat.div_add_mod d.val g.width
  have hmc := Nat.mod_lt c.val (width_pos c)
  have hmd := Nat.mod_lt d.val (width_pos c)
  simp only [position, Fin.lt_def, Int.ofNat_lt, Int.ofNat_inj]
  rcases Nat.lt_trichotomy (c.val / g.width) (d.val / g.width) with h | h | h
  · have := Nat.mul_le_mul_left g.width h
    rw [Nat.succ_eq_add_one, Nat.mul_add] at this
    omega
  · rw [h] at hc
    omega
  · have := Nat.mul_le_mul_left g.width h
    rw [Nat.succ_eq_add_one, Nat.mul_add] at this
    omega

end SoundAtlas.Grid
