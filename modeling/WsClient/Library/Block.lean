import Mathlib.Data.List.Range
import Mathlib.Data.List.Basic
import Mathlib.Tactic.Common

/-!
# Blocks of memory

A block is a piece of memory returned by an allocator: an address, a size and cells. The cells are
a total function of the offset, so that an access beyond the size has a meaning (it is an access
to other memory); whether an access stays inside the block is a separate statement about its
offset and length.

Copying reads the whole source range before it writes, so it behaves as if the bytes went through
a temporary, also when the ranges overlap.

## Main definitions

* `Block`, `Block.malloc`.
* `Block.read`, `Block.write`: a range of cells as a list, and writing a list at an offset.
* `Block.Copy`: a copy of a range of cells, with `Block.Copy.InBounds` and `Block.Copy.Disjoint`.

## Main results

* `Block.read_add`, `Block.drop_read`, `Block.take_read`: ranges split.
* `Block.read_write`, `Block.read_write_of_disjoint`, `Block.read_write_append`: reading after
  a write.
* `Block.Copy.disjoint_of_apart`, `Block.Copy.disjoint_toFront_iff`: when the ranges of a copy are
  disjoint.
-/

namespace WsClient

/-- A block of memory with cells of type `α`. -/
@[ext] structure Block (α : Type*) where
  /-- The address of the first cell. -/
  addr : ℕ
  /-- The number of cells allocated. -/
  size : ℕ
  /-- The cell at each offset from `addr`. -/
  cell : ℕ → α

namespace Block

variable {α : Type*} (m : Block α)

/-- Allocate a block of size `n`: the next block of the allocator's supply, with whatever address
and content it has. -/
def malloc (heap : ℕ → Block α) (n : ℕ) : Block α × (ℕ → Block α) :=
  ({ heap 0 with size := n }, fun k => heap (k + 1))

/-- The `n` cells from offset `off` on. -/
def read (off n : ℕ) : List α := (List.range n).map fun i => m.cell (off + i)

/-- Write a list of cells from offset `off` on. -/
def write (off : ℕ) (data : List α) : Block α :=
  { m with
    cell := fun i => if off ≤ i then (data[i - off]?).getD (m.cell i) else m.cell i }

/-- Replace one cell. -/
def set (i : ℕ) (a : α) : Block α := { m with cell := Function.update m.cell i a }

@[simp] theorem write_addr (off : ℕ) (data : List α) : (m.write off data).addr = m.addr := rfl

@[simp] theorem write_size (off : ℕ) (data : List α) : (m.write off data).size = m.size := rfl

@[simp] theorem set_addr (i : ℕ) (a : α) : (m.set i a).addr = m.addr := rfl

@[simp] theorem set_size (i : ℕ) (a : α) : (m.set i a).size = m.size := rfl

@[simp] theorem length_read (off n : ℕ) : (m.read off n).length = n := by simp [read]

@[simp] theorem read_zero (off : ℕ) : m.read off 0 = [] := rfl

theorem getElem_read {off n i : ℕ} (h : i < (m.read off n).length) :
    (m.read off n)[i] = m.cell (off + i) := by simp [read]

theorem getElem?_read {off n i : ℕ} (h : i < n) :
    (m.read off n)[i]? = some (m.cell (off + i)) := by
  simp [read, h]

/-- Two ranges with the same cells read the same. -/
theorem read_congr {m m' : Block α} {off off' n : ℕ}
    (h : ∀ i < n, m.cell (off + i) = m'.cell (off' + i)) : m.read off n = m'.read off' n :=
  List.map_congr_left fun i hi => h i (List.mem_range.mp hi)

theorem read_add (off k n : ℕ) : m.read off (k + n) = m.read off k ++ m.read (off + k) n := by
  simp only [read, List.range_add, List.map_append, List.map_map]
  congr 1
  refine List.map_congr_left fun i _ => ?_
  simp only [Function.comp_apply, Nat.add_assoc]

theorem take_read {k n : ℕ} (off : ℕ) (h : k ≤ n) : (m.read off n).take k = m.read off k := by
  obtain ⟨j, rfl⟩ := Nat.exists_eq_add_of_le h
  rw [read_add, List.take_left' (m.length_read off k)]

theorem drop_read {k n : ℕ} (off : ℕ) (h : k ≤ n) :
    (m.read off n).drop k = m.read (off + k) (n - k) := by
  obtain ⟨j, rfl⟩ := Nat.exists_eq_add_of_le h
  rw [read_add, List.drop_left' (m.length_read off k), Nat.add_sub_cancel_left]

theorem cell_write_of_lt {off i : ℕ} (data : List α) (h : i < off) :
    (m.write off data).cell i = m.cell i := by
  simp [write, Nat.not_le.mpr h]

theorem cell_write_of_ge {off i : ℕ} {data : List α} (h : off + data.length ≤ i) :
    (m.write off data).cell i = m.cell i := by
  have hle : data.length ≤ i - off := by omega
  simp [write, List.getElem?_eq_none hle]

theorem cell_write_add {off i : ℕ} {data : List α} (h : i < data.length) :
    (m.write off data).cell (off + i) = data[i] := by
  simp [write, h]

/-- Reading what was just written. -/
theorem read_write (off : ℕ) (data : List α) : (m.write off data).read off data.length = data := by
  refine List.ext_getElem (by simp) fun i hi hi' => ?_
  rw [getElem_read, cell_write_add m hi']

/-- A range that a write does not meet reads as before. -/
theorem read_write_of_disjoint {off off' n : ℕ} {data : List α}
    (h : off' + n ≤ off ∨ off + data.length ≤ off') :
    (m.write off data).read off' n = m.read off' n := by
  refine read_congr fun i hi => ?_
  rcases h with h | h
  · exact cell_write_of_lt m data (by omega)
  · exact cell_write_of_ge m (by omega)

/-- Writing behind a range appends to what is read. -/
theorem read_write_append (off n : ℕ) (data : List α) :
    (m.write (off + n) data).read off (n + data.length) = m.read off n ++ data := by
  rw [read_add, read_write_of_disjoint m (.inl le_rfl), read_write]

/-- Moving `n` cells to the front of a block, where the copy is skipped if there is nothing to
copy. -/
theorem read_move (m' : Block α) (off n : ℕ) :
    (if n ≠ 0 then m.write 0 (m'.read off n) else m).read 0 n = m'.read off n := by
  by_cases hn : n = 0
  · subst hn
    simp
  · rw [if_pos hn]
    have h := read_write m 0 (m'.read off n)
    rwa [length_read] at h

@[simp] theorem write_nil (off : ℕ) : m.write off [] = m := by
  ext i <;> simp [write]

/-! ### Copies -/

/-- The two blocks have no address in common. -/
def Apart (m m' : Block α) : Prop := m.addr + m.size ≤ m'.addr ∨ m'.addr + m'.size ≤ m.addr

instance (m m' : Block α) : Decidable (m.Apart m') := inferInstanceAs (Decidable (_ ∨ _))

/-- A copy of `len` cells from a range of one block to a range of another, or of the same. -/
structure Copy (α : Type*) where
  dst : Block α
  dstOff : ℕ
  src : Block α
  srcOff : ℕ
  len : ℕ

namespace Copy

variable (c : Copy α)

/-- The destination after the copy. -/
def result : Block α := c.dst.write c.dstOff (c.src.read c.srcOff c.len)

/-- Both ranges lie inside their blocks. -/
def InBounds : Prop := c.dstOff + c.len ≤ c.dst.size ∧ c.srcOff + c.len ≤ c.src.size

/-- The ranges do not overlap. -/
def Disjoint : Prop :=
  c.dst.addr + c.dstOff + c.len ≤ c.src.addr + c.srcOff ∨
    c.src.addr + c.srcOff + c.len ≤ c.dst.addr + c.dstOff

variable {c}

theorem disjoint_of_apart (h : c.dst.Apart c.src) (hin : c.InBounds) : c.Disjoint := by
  obtain ⟨hdst, hsrc⟩ := hin
  unfold Apart at h
  unfold Disjoint
  omega

/-- Cells that are moved to the front of their block. -/
theorem disjoint_toFront_iff {m : Block α} {off n : ℕ} :
    (Copy.mk m 0 m off n).Disjoint ↔ n ≤ off := by
  simp only [Disjoint]
  omega

end Copy

end Block

end WsClient
