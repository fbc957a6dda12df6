import WsClient.Library.Block

/-!
# Ring buffers with unreduced indices

A stream of cells is laid through a block of `C` cells: cell number `n` of the stream goes to
offset `n % C`. A cursor into the stream is kept as an *index* between `0` and `C`: it starts at
`0`, and after that the last cell used has offset `index - 1`, so an index rests at `C` before it
goes on from the front. Two indices encode offset `0`; the number of cells between two cursors is
still determined by their indices when it is less than `C`.

A range of the stream is moved by at most two copies, one up to the top of the block and one from
its bottom.

## Main definitions

* `Ring.index`: the index of a cursor.
* `Ring.distance`: the number of cells between two indices.
* `Ring.advance`, `Ring.segments`: moving an index on, and the copies that do it.
* `Ring.Covers`: a list of copies that covers a range of the stream.
* `Ring.view`: the cells of a range of the stream.

## Main results

* `Ring.index_add`, `Ring.distance_index`: what the indices encode.
* `Ring.covers_segments`: the copies cover the range.
* `Ring.read_eq_view`, `Ring.view_write`, `Ring.view_write_of_disjoint`: copies out of the ring and
  into it.
-/

namespace WsClient.Ring

variable {α : Type*} {C n k j off : ℕ}

/-! ### Indices -/

/-- The index of the cursor behind `n` cells. -/
def index (C n : ℕ) : ℕ := if n = 0 then 0 else (n - 1) % C + 1

/-- The number of cells from the index `r` to the index `w`. -/
def distance (C r w : ℕ) : ℕ := if r ≤ w then w - r else w + C - r

/-- The index `k` cells behind the index `i`. -/
def advance (C i k : ℕ) : ℕ := if k ≤ C - i then i + k else k - (C - i)

@[simp] theorem index_zero (C : ℕ) : index C 0 = 0 := rfl

theorem index_le (hC : 0 < C) (n : ℕ) : index C n ≤ C := by
  have := Nat.mod_lt (n - 1) hC
  unfold index
  split <;> omega

/-- A positive cursor is a number of whole rounds and its index. -/
theorem index_eq_of_rounds {q i : ℕ} (hi : 0 < i) (hiC : i ≤ C) (hn : n = C * q + i) :
    index C n = i := by
  have hpos : n ≠ 0 := by omega
  rw [index, if_neg hpos, show n - 1 = C * q + (i - 1) by omega, Nat.mul_add_mod,
    Nat.mod_eq_of_lt (by omega)]
  omega

theorem exists_rounds (C n : ℕ) : ∃ q, n = C * q + index C n := by
  by_cases hn : n = 0
  · exact ⟨0, by simp [hn]⟩
  · refine ⟨(n - 1) / C, ?_⟩
    have := Nat.div_add_mod (n - 1) C
    rw [index, if_neg hn]
    omega

/-- The index agrees with the cursor modulo the capacity. -/
theorem index_mod (C n : ℕ) : index C n % C = n % C := by
  obtain ⟨q, hq⟩ := exists_rounds C n
  conv_rhs => rw [hq, Nat.mul_add_mod]

/-- Moving an index on is moving its cursor on. -/
theorem index_add (hC : 0 < C) (hk : k ≤ C) (n : ℕ) :
    index C (n + k) = advance C (index C n) k := by
  obtain ⟨q, hq⟩ := exists_rounds C n
  have hle := index_le hC n
  unfold advance
  split
  · by_cases h0 : index C n + k = 0
    · obtain ⟨hi, rfl⟩ : index C n = 0 ∧ k = 0 := by omega
      simp [hi]
    · exact index_eq_of_rounds (q := q) (by omega) (by omega) (by omega)
  · refine index_eq_of_rounds (q := q + 1) (by omega) (by omega) ?_
    rw [Nat.mul_succ]
    omega

/-- Two indices determine the distance of their cursors when it is less than the capacity. -/
theorem distance_index {r w : ℕ} (hrw : r ≤ w) (hlt : w - r < C) :
    distance C (index C r) (index C w) = w - r := by
  have hle := index_le (by omega : 0 < C) r
  have hadd := index_add (by omega : 0 < C) hlt.le r
  rw [Nat.add_sub_cancel' hrw] at hadd
  rw [hadd, distance, advance]
  split_ifs <;> omega

/-! ### Copies -/

/-- The copies, as offsets and lengths, that move `k` cells from the index `i` on. -/
def segments (C i k : ℕ) : List (ℕ × ℕ) :=
  if k ≤ C - i then [(i, k)]
  else (if C - i ≠ 0 then [(i, C - i)] else []) ++
    if k - (C - i) ≠ 0 then [(0, k - (C - i))] else []

/-- The copies lie inside the block and cover, in order, the `k` cells from the cursor `n` on. -/
def Covers (C : ℕ) : ℕ → List (ℕ × ℕ) → ℕ → Prop
  | _, [], k => k = 0
  | n, (off, j) :: segs, k =>
    j ≤ k ∧ off + j ≤ C ∧ (0 < j → off = n % C) ∧ Covers C (n + j) segs (k - j)

theorem covers_segments (hC : 0 < C) (hk : k ≤ C) (n : ℕ) :
    Covers C n (segments C (index C n) k) k := by
  have hle := index_le hC n
  have hmod := index_mod C n
  have hoff : index C n < C → index C n = n % C := fun h => by
    rwa [Nat.mod_eq_of_lt h] at hmod
  unfold segments
  split
  · exact ⟨le_rfl, by omega, fun h => hoff (by omega), by simp [Covers]⟩
  · rename_i hlong
    have hrest : k - (C - index C n) ≠ 0 := by omega
    rw [if_pos hrest]
    by_cases htop : C - index C n = 0
    · have hfull : index C n = C := by omega
      rw [if_neg (by omega)]
      refine ⟨by omega, by omega, fun _ => ?_, by simp [Covers, htop]⟩
      rw [← hmod, hfull, Nat.mod_self]
    · rw [if_pos htop]
      refine ⟨by omega, by omega, fun h => hoff (by omega), by omega, by omega, fun _ => ?_, ?_⟩
      · obtain ⟨q, hq⟩ := exists_rounds C n
        have hround : n + (C - index C n) = C * (q + 1) := by
          rw [Nat.mul_succ]
          omega
        rw [hround, Nat.mul_mod_right]
      · simp [Covers]

/-! ### Cells of the stream -/

/-- The `k` cells of the stream from the cursor `n` on. -/
def view (m : Block α) (C n k : ℕ) : List α := (List.range k).map fun i => m.cell ((n + i) % C)

@[simp] theorem length_view (m : Block α) (C n k : ℕ) : (view m C n k).length = k := by
  simp [view]

@[simp] theorem view_zero (m : Block α) (C n : ℕ) : view m C n 0 = [] := rfl

theorem view_add (m : Block α) (C n j k : ℕ) :
    view m C n (j + k) = view m C n j ++ view m C (n + j) k := by
  simp only [view, List.range_add, List.map_append, List.map_map]
  congr 1
  refine List.map_congr_left fun i _ => ?_
  simp only [Function.comp_apply, Nat.add_assoc]

theorem take_view (m : Block α) (C n : ℕ) (h : j ≤ k) :
    (view m C n k).take j = view m C n j := by
  obtain ⟨i, rfl⟩ := Nat.exists_eq_add_of_le h
  rw [view_add, List.take_left' (length_view m C n j)]

theorem drop_view (m : Block α) (C n : ℕ) (h : j ≤ k) :
    (view m C n k).drop j = view m C (n + j) (k - j) := by
  obtain ⟨i, rfl⟩ := Nat.exists_eq_add_of_le h
  rw [view_add, List.drop_left' (length_view m C n j), Nat.add_sub_cancel_left]

/-- Inside a copy the offsets are consecutive. -/
theorem mod_add_of_segment (hin : off + j ≤ C) (hoff : 0 < j → off = n % C) {i : ℕ} (hi : i < j) :
    (n + i) % C = off + i := by
  have hn := Nat.div_add_mod n C
  rw [hoff (by omega)] at hin ⊢
  rw [show n + i = C * (n / C) + (n % C + i) by omega, Nat.mul_add_mod,
    Nat.mod_eq_of_lt (by omega)]

/-- Cells less than one round apart lie at different offsets. -/
theorem mod_ne_mod {a b : ℕ} (hlt : a < b) (hround : b < a + C) : a % C ≠ b % C := by
  intro h
  have hdvd : C ∣ b - a := Nat.dvd_of_mod_eq_zero (Nat.sub_mod_eq_zero_of_mod_eq h.symm)
  have := Nat.le_of_dvd (by omega) hdvd
  omega

/-- A copy out of the ring reads the cells of the stream. -/
theorem read_eq_view (m : Block α) (hin : off + j ≤ C) (hoff : 0 < j → off = n % C) :
    m.read off j = view m C n j :=
  List.map_congr_left fun i hi => by
    rw [mod_add_of_segment hin hoff (List.mem_range.mp hi)]

/-- A copy into the ring writes the cells of the stream. -/
theorem view_write (m : Block α) {data : List α} (hin : off + data.length ≤ C)
    (hoff : 0 < data.length → off = n % C) :
    view (m.write off data) C n data.length = data := by
  rw [← read_eq_view (m.write off data) hin hoff, Block.read_write]

/-- A copy into the ring behind a range of the stream, and less than one round behind its first
cell, leaves the range as it was. -/
theorem view_write_of_disjoint (m : Block α) {data : List α} {p : ℕ}
    (hin : off + data.length ≤ C) (hoff : 0 < data.length → off = p % C) (hbehind : n + k ≤ p)
    (hround : p + data.length ≤ n + C) : view (m.write off data) C n k = view m C n k := by
  refine List.map_congr_left fun i hi => ?_
  have hik := List.mem_range.mp hi
  by_cases hmet : off ≤ (n + i) % C ∧ (n + i) % C < off + data.length
  · -- the copy would meet this cell at a cursor less than one round further on
    have hcell := mod_add_of_segment hin hoff (i := (n + i) % C - off) (by omega)
    exact absurd (by rw [hcell]; omega)
      (mod_ne_mod (C := C) (a := n + i) (b := p + ((n + i) % C - off)) (by omega) (by omega))
  · by_cases hbelow : (n + i) % C < off
    · exact Block.cell_write_of_lt m data hbelow
    · exact Block.cell_write_of_ge m (by omega)

end WsClient.Ring
