import Mathlib.Data.List.Flatten
import Mathlib.Data.List.Nodup
import Mathlib.Order.Lattice

/-!
# Tables partitioned by range

Each partition of a table takes the positions of an interval, and a spare
partition, while it is attached, takes the rest.  A row is named by its key,
and rows with one key have one position.

The statements are those of a relational database.  A partition is created if
its name is free and no row of the spare one belongs to it; a row is inserted
if its key is not there; the spare partition is detached, copied through the
table, emptied and attached; and a partition is dropped with its rows.

`Valid` holds between statements: rows lie in their intervals, which do not
meet, the spare partition has only rows of none, and no key is there twice.
Moving an interval out of the spare partition keeps every row.
-/

namespace Ironclaw.Lib.Partitioned

open List

/-- Why a statement is refused. -/
inductive Refusal where
  | checkViolation
  | invalidDefinition
  | undefinedTable
  | wrongObjectType
deriving DecidableEq

/-- What names a row and where it belongs, and the name of the spare
partition. -/
structure Layout (Row Key Bound : Type) where
  key : Row → Key
  position : Row → Bound
  spareName : String
  determined : ∀ {left right : Row},
    key left = key right → position left = position right

/-- The definition of a partition: its name and its interval. -/
structure Frame (Bound : Type) where
  name : String
  lower : Bound
  upper : Bound
deriving DecidableEq

/-- The rows of one interval. -/
structure Partition (Row Bound : Type) where
  frame : Frame Bound
  rows : List Row

/-- The spare partition. -/
structure Spare (Row : Type) where
  attached : Bool
  rows : List Row

/-- Partitions, and the spare one if there is one. -/
structure Table (Row Bound : Type) where
  partitions : List (Partition Row Bound)
  spare : Option (Spare Row)

variable {Row Key Bound : Type}
variable {rows : List Row}

/-! ## Statements -/

section Statements

variable [DecidableEq Key] [LinearOrder Bound]
variable (layout : Layout Row Key Bound)

namespace Frame

def covers (frame : Frame Bound) (position : Bound) : Prop :=
  frame.lower ≤ position ∧ position < frame.upper

instance (frame : Frame Bound) (position : Bound) :
    Decidable (frame.covers position) :=
  inferInstanceAs (Decidable (_ ∧ _))

/-- No position is in both intervals. -/
def Apart (left right : Frame Bound) : Prop :=
  left.upper ≤ right.lower ∨ right.upper ≤ left.lower

instance (left right : Frame Bound) : Decidable (left.Apart right) :=
  inferInstanceAs (Decidable (_ ∨ _))

end Frame

/-- `ON CONFLICT DO NOTHING`. -/
def addRow (rows : List Row) (row : Row) : List Row :=
  if rows.any (layout.key · = layout.key row) then rows else rows ++ [row]

/-- The rows that an interval takes. -/
def taken (frame : Frame Bound) (rows : List Row) : List Row :=
  rows.filter fun row => frame.covers (layout.position row)

/-- The rows that it leaves. -/
def leftOver (frame : Frame Bound) (rows : List Row) : List Row :=
  rows.filter fun row => ¬frame.covers (layout.position row)

/-- Insert a row into the partition that takes it. -/
def insertInto (row : Row) :
    List (Partition Row Bound) → Option (List (Partition Row Bound))
  | [] => none
  | partition :: rest =>
    if partition.frame.covers (layout.position row) then
      some ({ partition with rows := addRow layout partition.rows row } ::
        rest)
    else (insertInto row rest).map (partition :: ·)

namespace Table

/-- The rows that the table shows. -/
def visible (table : Table Row Bound) : List Row :=
  table.partitions.flatMap Partition.rows ++
    match table.spare with
    | some ⟨true, rows⟩ => rows
    | _ => []

/-- The names of the tables that are attached. -/
def children (table : Table Row Bound) : List String :=
  table.partitions.map (·.frame.name) ++
    match table.spare with
    | some ⟨true, _⟩ => [layout.spareName]
    | _ => []

/-- `INSERT INTO table … ON CONFLICT DO NOTHING`. -/
def insert (row : Row) (table : Table Row Bound) :
    Except Refusal (Table Row Bound) :=
  match insertInto layout row table.partitions with
  | some partitions => .ok { table with partitions := partitions }
  | none =>
    match table.spare with
    | some ⟨true, rows⟩ =>
      .ok { table with spare := some ⟨true, addRow layout rows row⟩ }
    | _ => .error .checkViolation

/-- `CREATE TABLE IF NOT EXISTS name PARTITION OF table FOR VALUES FROM … TO`:
an attached spare partition must have no row of the interval. -/
def create (frame : Frame Bound) (table : Table Row Bound) :
    Except Refusal (Table Row Bound) :=
  if (∃ partition ∈ table.partitions, partition.frame.name = frame.name) ∨
      table.spare.isSome ∧ frame.name = layout.spareName then
    .ok table
  else if ¬frame.lower < frame.upper ∨
      ∃ partition ∈ table.partitions, ¬partition.frame.Apart frame then
    .error .invalidDefinition
  else if ∃ spare ∈ table.spare, spare.attached ∧
      taken layout frame spare.rows ≠ [] then
    .error .checkViolation
  else
    .ok { table with partitions := table.partitions ++ [⟨frame, []⟩] }

/-- `ALTER TABLE table DETACH PARTITION spare`. -/
def detach (table : Table Row Bound) : Except Refusal (Table Row Bound) :=
  match table.spare with
  | some ⟨true, rows⟩ => .ok { table with spare := some ⟨false, rows⟩ }
  | _ => .error .undefinedTable

/-- `INSERT INTO table SELECT * FROM spare WHERE … ON CONFLICT DO NOTHING`. -/
def copy (frame : Frame Bound) (table : Table Row Bound) :
    Except Refusal (Table Row Bound) :=
  match table.spare with
  | none => .error .undefinedTable
  | some spare =>
    (taken layout frame spare.rows).foldlM
      (fun table row => table.insert layout row) table

/-- `DELETE FROM spare WHERE …`. -/
def clear (frame : Frame Bound) (table : Table Row Bound) :
    Except Refusal (Table Row Bound) :=
  match table.spare with
  | none => .error .undefinedTable
  | some spare =>
    .ok
      { table with
        spare := some
          { spare with rows := leftOver layout frame spare.rows } }

/-- `ALTER TABLE table ATTACH PARTITION spare DEFAULT`: no row of it may belong
to another partition. -/
def attach (table : Table Row Bound) : Except Refusal (Table Row Bound) :=
  match table.spare with
  | none => .error .undefinedTable
  | some ⟨true, _⟩ => .error .wrongObjectType
  | some ⟨false, rows⟩ =>
    if ∃ partition ∈ table.partitions,
        taken layout partition.frame rows ≠ [] then
      .error .checkViolation
    else .ok { table with spare := some ⟨true, rows⟩ }

/-- `DROP TABLE IF EXISTS name`. -/
def drop (name : String) (table : Table Row Bound) : Table Row Bound where
  partitions := table.partitions.filter (·.frame.name ≠ name)
  spare := if name = layout.spareName then none else table.spare

end Table

end Statements

/-! ## Valid tables -/

/-- A table whose spare partition is attached. -/
def Table.whole
    (partitions : List (Partition Row Bound)) (spare : List Row) :
    Table Row Bound :=
  ⟨partitions, some ⟨true, spare⟩⟩

/-- A table whose spare partition is detached. -/
def Table.parted
    (partitions : List (Partition Row Bound)) (spare : List Row) :
    Table Row Bound :=
  ⟨partitions, some ⟨false, spare⟩⟩

open Table

/-- All rows of a table. -/
def rowsOf
    (partitions : List (Partition Row Bound)) (spare : List Row) :
    List Row :=
  partitions.flatMap Partition.rows ++ spare

theorem rowsOf_add
    (before after : List (Partition Row Bound)) (frame : Frame Bound)
    (rows spare : List Row) (row : Row) :
    (rowsOf (before ++ ⟨frame, rows ++ [row]⟩ :: after) spare).Perm
      (row :: rowsOf (before ++ ⟨frame, rows⟩ :: after) spare) := by
  simp only [rowsOf, flatMap_append, flatMap_cons,
    append_assoc, singleton_append]
  exact (perm_middle.append_left _).trans perm_middle

section Keys

variable {layout : Layout Row Key Bound} {row : Row}

theorem keys_nodup {all : List Row} (perm : all.Perm (row :: rows))
    (keyed : (rows.map layout.key).Nodup)
    (absent : ∀ other ∈ rows, layout.key other ≠ layout.key row) :
    (all.map layout.key).Nodup := by
  apply ((perm.map layout.key).nodup_iff).mpr
  apply nodup_cons.mpr
  refine ⟨?_, keyed⟩
  intro member
  rcases mem_map.mp member with ⟨other, present, same⟩
  exact absent other present same

variable [DecidableEq Key]

theorem addRow_present {other : Row} (member : other ∈ rows)
    (same : layout.key other = layout.key row) :
    addRow layout rows row = rows := by
  apply if_pos
  exact any_eq_true.mpr ⟨other, member, decide_eq_true same⟩

theorem addRow_absent
    (absent : ∀ other ∈ rows, layout.key other ≠ layout.key row) :
    addRow layout rows row = rows ++ [row] := by
  apply if_neg
  intro present
  rcases any_eq_true.mp present with ⟨other, member, same⟩
  exact absent other member (of_decide_eq_true same)

end Keys

variable [LinearOrder Bound]

/-- Names that are different, and intervals that do not meet. -/
structure Frames
    (layout : Layout Row Key Bound) (frames : List (Frame Bound)) :
    Prop where
  named : (frames.map Frame.name).Nodup
  unspared : layout.spareName ∉ frames.map Frame.name
  apart : frames.Pairwise Frame.Apart

structure Valid
    (layout : Layout Row Key Bound)
    (partitions : List (Partition Row Bound)) (spare : List Row) :
    Prop where
  frames : Frames layout (partitions.map Partition.frame)
  placed : ∀ partition ∈ partitions, ∀ row ∈ partition.rows,
    partition.frame.covers (layout.position row)
  remaining : ∀ row ∈ spare, ∀ frame ∈ partitions.map Partition.frame,
    ¬frame.covers (layout.position row)
  keyed : ((rowsOf partitions spare).map layout.key).Nodup

variable {layout : Layout Row Key Bound}
variable {partitions before after : List (Partition Row Bound)}
variable {partition : Partition Row Bound} {spare : List Row}
variable {row : Row}

theorem Valid.empty : Valid layout [] [] where
  frames := ⟨nodup_nil, not_mem_nil, Pairwise.nil⟩
  placed := forall_mem_nil _
  remaining := forall_mem_nil _
  keyed := nodup_nil

theorem Valid.nodup (valid : Valid layout partitions spare) :
    (rowsOf partitions spare).Nodup :=
  valid.keyed.of_map

theorem Frame.Apart.not_covers
    {left right : Frame Bound} (apart : left.Apart right)
    {position : Bound} (covers : right.covers position) :
    ¬left.covers position := by
  intro both
  rcases apart with below | above
  · exact absurd (lt_of_lt_of_le both.2 below) (not_lt.mpr covers.1)
  · exact absurd (lt_of_lt_of_le covers.2 above) (not_lt.mpr both.1)

/-- The other partitions do not take the rows of one. -/
theorem Valid.not_covers
    (valid : Valid layout (before ++ partition :: after) spare)
    {position : Bound} (covers : partition.frame.covers position)
    {other : Partition Row Bound} (member : other ∈ before ++ after) :
    ¬other.frame.covers position := by
  have apart := valid.frames.apart
  rw [map_append, map_cons] at apart
  rcases pairwise_append.mp apart with ⟨_, later, earlier⟩
  rcases mem_append.mp member with first | last
  · have side := earlier _ (mem_map_of_mem first) _ mem_cons_self
    exact side.not_covers covers
  · have side := rel_of_pairwise_cons later (mem_map_of_mem last)
    exact Frame.Apart.not_covers (Or.symm side) covers

/-- A key that is there is in the partition that takes its row. -/
theorem Valid.mem_rows
    (valid : Valid layout (before ++ partition :: after) spare)
    (covers : partition.frame.covers (layout.position row))
    {other : Row} (same : layout.key other = layout.key row)
    (present : other ∈ rowsOf (before ++ partition :: after) spare) :
    other ∈ partition.rows := by
  have position := layout.determined same
  rw [← position] at covers
  rcases mem_append.mp present with inside | outside
  · rcases mem_flatMap.mp inside with ⟨holder, held, here⟩
    rcases mem_cons.mp (perm_middle.mem_iff.mp held) with rfl | apart
    · exact here
    · have placed := valid.placed holder held other here
      exact absurd placed (valid.not_covers covers apart)
  · have member : partition ∈ before ++ partition :: after :=
      mem_append_right _ mem_cons_self
    exact absurd covers
      (valid.remaining other outside _ (mem_map_of_mem member))

/-! ## Inserting -/

/-- No partition takes a row. -/
def Uncovered
    (layout : Layout Row Key Bound) (row : Row)
    (partitions : List (Partition Row Bound)) : Prop :=
  ∀ partition ∈ partitions, ¬partition.frame.covers (layout.position row)

/-- A row belongs to one of the partitions or to none. -/
theorem covered_or_uncovered (layout : Layout Row Key Bound) (row : Row)
    (partitions : List (Partition Row Bound)) :
    (∃ before partition after, partitions = before ++ partition :: after ∧
        partition.frame.covers (layout.position row)) ∨
      Uncovered layout row partitions := by
  by_cases covered : ∃ partition ∈ partitions,
      partition.frame.covers (layout.position row)
  · rcases covered with ⟨partition, member, covers⟩
    rcases append_of_mem member with ⟨before, after, split⟩
    exact Or.inl ⟨before, partition, after, split, covers⟩
  · exact Or.inr fun partition member covers =>
      covered ⟨partition, member, covers⟩

section Insert

variable [DecidableEq Key]

theorem insertInto_none (uncovered : Uncovered layout row partitions) :
    insertInto layout row partitions = none := by
  induction partitions with
  | nil => rfl
  | cons partition rest induction =>
    rw [insertInto, if_neg (uncovered partition mem_cons_self),
      induction fun other member =>
        uncovered other (mem_cons_of_mem _ member)]
    rfl

theorem insertInto_append (uncovered : Uncovered layout row before)
    (covers : partition.frame.covers (layout.position row)) :
    insertInto layout row (before ++ partition :: after) = some (before ++
        { partition with rows := addRow layout partition.rows row } ::
          after) := by
  induction before with
  | nil => exact if_pos covers
  | cons first rest induction =>
    rw [cons_append, insertInto, if_neg (uncovered first mem_cons_self),
      induction fun other member =>
        uncovered other (mem_cons_of_mem _ member)]
    rfl

theorem Valid.insert_inside
    (valid : Valid layout (before ++ partition :: after) spare)
    (covers : partition.frame.covers (layout.position row)) :
    (whole (before ++ partition :: after) spare).insert layout row =
      .ok (whole (before ++
          { partition with rows := addRow layout partition.rows row } ::
            after)
        spare) := by
  have uncovered : Uncovered layout row before := fun other member =>
    valid.not_covers covers (mem_append_left _ member)
  rw [Table.insert, whole, insertInto_append uncovered covers]
  rfl

theorem insert_outside (uncovered : Uncovered layout row partitions) :
    (whole partitions spare).insert layout row =
      .ok (whole partitions (addRow layout spare row)) := by
  rw [Table.insert, whole, insertInto_none uncovered]
  rfl

/-- A row of a new key is one more row; the table stays valid, and the
definitions of the partitions stay as they are. -/
theorem Valid.insert_new (valid : Valid layout partitions spare)
    (absent : ∀ other ∈ rowsOf partitions spare,
      layout.key other ≠ layout.key row) :
    ∃ partitions' spare', (whole partitions spare).insert layout row =
          .ok (whole partitions' spare') ∧
        Valid layout partitions' spare' ∧ partitions'.map Partition.frame =
              partitions.map Partition.frame ∧
            (rowsOf partitions' spare').Perm
              (row :: rowsOf partitions spare) := by
  rcases covered_or_uncovered layout row partitions with
    ⟨before, partition, after, rfl, covers⟩ | uncovered
  · have member : partition ∈ before ++ partition :: after :=
      mem_append_right _ mem_cons_self
    have here : ∀ other ∈ partition.rows,
        layout.key other ≠ layout.key row := by
      intro other held
      apply absent
      apply mem_append_left
      exact mem_flatMap.mpr ⟨partition, member, held⟩
    have perm := rowsOf_add before after partition.frame partition.rows
      spare row
    have same : (before ++ ⟨partition.frame, partition.rows ++ [row]⟩ ::
        after).map Partition.frame =
          (before ++ partition :: after).map Partition.frame := by
      simp only [map_append, map_cons]
    refine ⟨before ++ ⟨partition.frame, partition.rows ++ [row]⟩ :: after,
      spare, ?_, ⟨?_, ?_, ?_, ?_⟩, same, perm⟩
    · rw [valid.insert_inside covers, addRow_absent here]
    · rw [same]
      exact valid.frames
    · have placed := valid.placed
      rw [forall_mem_append, forall_mem_cons] at placed ⊢
      refine ⟨placed.1, ?_, placed.2.2⟩
      rw [forall_mem_append, forall_mem_singleton]
      exact ⟨placed.2.1, covers⟩
    · rw [same]
      exact valid.remaining
    · exact keys_nodup perm valid.keyed absent
  · have outside : ∀ other ∈ spare, layout.key other ≠ layout.key row :=
      fun other member => absent other (mem_append_right _ member)
    have perm : (rowsOf partitions (spare ++ [row])).Perm
        (row :: rowsOf partitions spare) := by
      rw [rowsOf, ← append_assoc]
      exact perm_append_singleton row _
    refine ⟨partitions, spare ++ [row], ?_,
      ⟨valid.frames, valid.placed, ?_, ?_⟩, rfl, perm⟩
    · rw [insert_outside uncovered, addRow_absent outside]
    · rw [forall_mem_append, forall_mem_singleton, forall_mem_map]
      exact ⟨valid.remaining, uncovered⟩
    · exact keys_nodup perm valid.keyed absent

/-- A row of a key that is there is not inserted. -/
theorem Valid.insert_present (valid : Valid layout partitions spare)
    {other : Row} (present : other ∈ rowsOf partitions spare)
    (same : layout.key other = layout.key row) :
    (whole partitions spare).insert layout row =
      .ok (whole partitions spare) := by
  rcases covered_or_uncovered layout row partitions with
    ⟨before, partition, after, rfl, covers⟩ | uncovered
  · have held := valid.mem_rows covers same present
    rw [valid.insert_inside covers, addRow_present held same]
  · have outside : other ∈ spare := by
      apply (mem_append.mp present).resolve_left
      intro inside
      rcases mem_flatMap.mp inside with ⟨partition, member, held⟩
      apply uncovered partition member
      rw [← layout.determined same]
      exact valid.placed partition member other held
    rw [insert_outside uncovered, addRow_present outside same]

end Insert

/-! ## Moving rows out of the spare partition -/

section Adopt

variable {frame : Frame Bound}

/-- What a new partition may change: there is one interval more at most, and
every row is where it belongs. -/
def Adopts
    (layout : Layout Row Key Bound) (frame : Frame Bound)
    (partitions : List (Partition Row Bound)) (spare : List Row)
    (table : Table Row Bound) : Prop :=
  ∃ partitions' spare', table = whole partitions' spare' ∧
    Valid layout partitions' spare' ∧
      (∀ other ∈ partitions'.map Partition.frame,
        other ∈ partitions.map Partition.frame ∨ other = frame) ∧
        (rowsOf partitions' spare').Perm (rowsOf partitions spare)

theorem Valid.adopts_self (valid : Valid layout partitions spare) :
    Adopts layout frame partitions spare (whole partitions spare) :=
  ⟨partitions, spare, rfl, valid, fun _ member => Or.inl member, Perm.refl _⟩

/-- An interval apart from all others takes its rows from the spare
partition. -/
theorem Valid.adopts (valid : Valid layout partitions spare)
    (new : ∀ partition ∈ partitions, partition.frame.name ≠ frame.name)
    (unspared : frame.name ≠ layout.spareName)
    (apart : ∀ partition ∈ partitions, partition.frame.Apart frame) :
    Adopts layout frame partitions spare
      (whole (partitions ++ [⟨frame, taken layout frame spare⟩])
        (leftOver layout frame spare)) := by
  have perm : (rowsOf (partitions ++ [⟨frame, taken layout frame spare⟩])
      (leftOver layout frame spare)).Perm (rowsOf partitions spare) := by
    simp only [rowsOf, flatMap_append, flatMap_singleton, append_assoc]
    apply Perm.append_left
    simp only [taken, leftOver, decide_not]
    exact filter_append_perm _ spare
  refine ⟨_, _, rfl, ⟨⟨?_, ?_, ?_⟩, ?_, ?_, ?_⟩, ?_, perm⟩
  · rw [map_append, map_append]
    apply nodup_append.mpr
    refine ⟨valid.frames.named, nodup_singleton _, ?_⟩
    intro name old other added
    rcases mem_map.mp old with ⟨_, framed, rfl⟩
    rcases mem_map.mp framed with ⟨partition, member, rfl⟩
    rw [mem_singleton.mp added]
    exact new partition member
  · rw [map_append, map_append]
    intro member
    rcases mem_append.mp member with old | added
    · exact valid.frames.unspared old
    · exact unspared (mem_singleton.mp added).symm
  · rw [map_append]
    apply pairwise_append.mpr
    refine ⟨valid.frames.apart, pairwise_singleton _ _, ?_⟩
    intro other old last added
    rcases mem_map.mp old with ⟨partition, member, rfl⟩
    rw [mem_singleton.mp added]
    exact apart partition member
  · rw [forall_mem_append, forall_mem_singleton]
    exact ⟨valid.placed, fun row inside =>
      of_decide_eq_true (mem_filter.mp inside).2⟩
  · intro row member
    rcases mem_filter.mp member with ⟨present, uncovered⟩
    rw [map_append, forall_mem_append]
    exact ⟨valid.remaining row present,
      forall_mem_singleton.mpr (of_decide_eq_true uncovered)⟩
  · exact ((perm.map layout.key).nodup_iff).mpr valid.keyed
  · intro other inside
    rw [map_append] at inside
    rcases mem_append.mp inside with old | added
    · exact Or.inl old
    · exact Or.inr (mem_singleton.mp added)

/-- What a table must be like for a new partition. -/
theorem create_ok {table created : Table Row Bound}
    (success : table.create layout frame = .ok created) :
    ((∃ partition ∈ table.partitions, partition.frame.name = frame.name) ∨
        table.spare.isSome ∧ frame.name = layout.spareName) ∧
        created = table ∨
      (∀ partition ∈ table.partitions, partition.frame.name ≠ frame.name ∧
            partition.frame.Apart frame) ∧
        (∀ spare ∈ table.spare, spare.attached = true →
          taken layout frame spare.rows = []) ∧ created =
            { table with
              partitions := table.partitions ++ [⟨frame, []⟩] } := by
  rw [Table.create] at success
  split at success
  · rename_i named
    cases success
    exact Or.inl ⟨named, rfl⟩
  · rename_i unnamed
    split at success
    · cases success
    · rename_i sound
      split at success
      · cases success
      · rename_i clear
        cases success
        refine Or.inr ⟨?_, ?_, rfl⟩
        · intro partition member
          refine ⟨fun same => unnamed (Or.inl ⟨_, member, same⟩), ?_⟩
          by_contra meets
          exact sound (Or.inr ⟨partition, member, meets⟩)
        · intro spare present attached
          by_contra rows
          exact clear ⟨spare, present, attached, rows⟩

theorem leftOver_eq_self (none : taken layout frame rows = []) :
    leftOver layout frame rows = rows := by
  apply filter_eq_self.mpr
  intro row member
  have uncovered := filter_eq_nil_iff.mp none row member
  exact decide_eq_true fun covers => uncovered (decide_eq_true covers)

theorem Valid.create (valid : Valid layout partitions spare)
    (unspared : frame.name ≠ layout.spareName) {created : Table Row Bound}
    (success : (whole partitions spare).create layout frame =
      .ok created) :
    Adopts layout frame partitions spare created := by
  rcases create_ok success with ⟨_, rfl⟩ | ⟨new, clear, rfl⟩
  · exact valid.adopts_self
  · have none := clear _ rfl rfl
    have adopts := valid.adopts (fun other member => (new other member).1)
      unspared fun other member => (new other member).2
    dsimp only at none
    rw [none, leftOver_eq_self none] at adopts
    exact adopts

theorem attach_ok {attached : Table Row Bound}
    (success : (parted partitions spare).attach layout = .ok attached) :
    attached = whole partitions spare := by
  rw [Table.attach, parted] at success
  dsimp only at success
  split at success
  · cases success
  · cases success
    rfl

theorem Valid.taken_eq_nil (valid : Valid layout partitions spare)
    (member : frame ∈ partitions.map Partition.frame) :
    taken layout frame spare = [] := by
  apply filter_eq_nil_iff.mpr
  intro row present covers
  exact valid.remaining row present frame member (of_decide_eq_true covers)

variable [DecidableEq Key]

/-- The rows that a new partition takes are all copied into it. -/
theorem foldlM_insert_last {old : List Row}
    (uncovered : ∀ row ∈ rows, Uncovered layout row partitions)
    (covers : ∀ row ∈ rows, frame.covers (layout.position row))
    (keyed : ((old ++ rows).map layout.key).Nodup)
    (holder : Option (Spare Row)) :
    rows.foldlM (fun (table : Table Row Bound) row => table.insert layout row)
        ⟨partitions ++ [⟨frame, old⟩], holder⟩ =
      .ok ⟨partitions ++ [⟨frame, old ++ rows⟩], holder⟩ := by
  induction rows generalizing old with
  | nil =>
    rw [append_nil]
    rfl
  | cons row rest induction =>
    have absent : ∀ other ∈ old, layout.key other ≠ layout.key row := by
      intro other member same
      rw [map_append] at keyed
      exact (nodup_append.mp keyed).2.2 _ (mem_map_of_mem member) _
        (mem_map_of_mem mem_cons_self) same
    have inserted := @insertInto_append _ _ _ _ layout partitions []
      ⟨frame, old⟩ row _ (uncovered row mem_cons_self)
      (covers row mem_cons_self)
    rw [foldlM_cons, Table.insert]
    dsimp only
    rw [inserted, addRow_absent absent]
    have later := @induction (old ++ [row])
      (fun other inside => uncovered other (mem_cons_of_mem _ inside))
      (fun other inside => covers other (mem_cons_of_mem _ inside))
      (by rwa [append_assoc, singleton_append])
    rw [append_assoc, singleton_append] at later
    exact later

/-- A new partition is given the rows that it takes. -/
theorem Valid.copy_new (valid : Valid layout partitions spare) :
    (parted (partitions ++ [⟨frame, []⟩]) spare).copy layout frame =
      .ok (parted
        (partitions ++ [⟨frame, taken layout frame spare⟩]) spare) := by
  apply foldlM_insert_last
  · intro row inside partition member
    exact valid.remaining row (mem_filter.mp inside).1 _
      (mem_map_of_mem member)
  · intro row inside
    exact of_decide_eq_true (mem_filter.mp inside).2
  · refine Nodup.sublist ?_ valid.keyed
    apply Sublist.map
    exact filter_sublist.trans (sublist_append_right _ _)

/-- The statements that move an interval out of the spare partition, one after
the other, keep every row. -/
theorem Valid.migrate (valid : Valid layout partitions spare)
    (unspared : frame.name ≠ layout.spareName)
    (fits : ∀ other ∈ partitions.map Partition.frame,
      other.name = frame.name → other = frame)
    {detached created copied cleared attached : Table Row Bound}
    (detach : (whole partitions spare).detach = .ok detached)
    (create : detached.create layout frame = .ok created)
    (copy : created.copy layout frame = .ok copied)
    (clear : copied.clear layout frame = .ok cleared)
    (attach : cleared.attach layout = .ok attached) :
    Adopts layout frame partitions spare attached := by
  have apart : detached = parted partitions spare :=
    (Except.ok.inj detach).symm
  rw [apart] at create
  rcases create_ok create with ⟨named | spareNamed, rfl⟩ | ⟨new, _, equal⟩
  · rcases named with ⟨partition, member, same⟩
    have listed : partition.frame ∈ partitions.map Partition.frame :=
      mem_map_of_mem member
    rw [fits _ listed same] at listed
    have none := valid.taken_eq_nil listed
    rw [Table.copy, parted] at copy
    dsimp only at copy
    rw [none] at copy
    cases copy
    cases clear
    dsimp only at attach
    rw [leftOver_eq_self none] at attach
    rw [attach_ok attach]
    exact valid.adopts_self
  · exact absurd spareNamed.2 unspared
  · have added : created =
        parted (partitions ++ [⟨frame, []⟩]) spare := equal
    rw [added, valid.copy_new] at copy
    cases copy
    cases clear
    rw [attach_ok attach]
    exact valid.adopts (fun other member => (new other member).1) unspared
      fun other member => (new other member).2

end Adopt

/-! ## Dropping -/

/-- A partition that is dropped takes its rows with it, and no others. -/
theorem Valid.drop (valid : Valid layout partitions spare)
    {name : String} (unspared : name ≠ layout.spareName) :
    ∃ partitions', (whole partitions spare).drop layout name =
          whole partitions' spare ∧ Valid layout partitions' spare ∧
          (∀ frame ∈ partitions'.map Partition.frame,
            frame ∈ partitions.map Partition.frame) ∧
            ∀ row ∈ rowsOf partitions spare, row ∈ rowsOf partitions' spare ∨
                ∃ partition ∈ partitions,
                  partition.frame.name = name ∧ row ∈ partition.rows := by
  have sublist : Sublist
      (partitions.filter (·.frame.name ≠ name)) partitions :=
    filter_sublist
  have frames := sublist.map Partition.frame
  refine ⟨partitions.filter (·.frame.name ≠ name), ?_,
    ⟨⟨?_, ?_, ?_⟩, ?_, ?_, ?_⟩, fun frame member => frames.subset member,
    ?_⟩
  · rw [Table.drop, if_neg unspared]
    rfl
  · exact valid.frames.named.sublist (frames.map Frame.name)
  · exact fun member =>
      valid.frames.unspared ((frames.map Frame.name).subset member)
  · exact valid.frames.apart.sublist frames
  · exact fun partition member =>
      valid.placed partition (sublist.subset member)
  · exact fun row member frame inside =>
      valid.remaining row member frame (frames.subset inside)
  · refine Nodup.sublist ?_ valid.keyed
    apply Sublist.map
    exact (sublist.flatMap _).append_right spare
  · intro row member
    rcases mem_append.mp member with inside | outside
    · rcases mem_flatMap.mp inside with ⟨partition, held, here⟩
      by_cases same : partition.frame.name = name
      · exact Or.inr ⟨partition, held, same, here⟩
      · have kept : partition ∈ partitions.filter (·.frame.name ≠ name) :=
          mem_filter.mpr ⟨held, decide_eq_true same⟩
        exact Or.inl (mem_append_left _
          (mem_flatMap.mpr ⟨partition, kept, here⟩))
    · exact Or.inl (mem_append_right _ outside)

end Ironclaw.Lib.Partitioned
