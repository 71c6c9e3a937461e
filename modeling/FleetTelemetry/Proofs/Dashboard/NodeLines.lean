import FleetTelemetry.Dashboard.Overview
import FleetTelemetry.Proofs.Text.Columns
import FleetTelemetry.Proofs.Text.Words

/-!
# Node lines

A column that is too long for its width pushes the columns behind it to the right, and the space
between two columns is never used up. So a node line is still cut into its columns from the right,
where no column has blanks, and what is left is the name of the node with its mark, whatever the
name is.
-/

namespace FleetTelemetry.Dashboard

open Text

variable {row row' : NodeRow}

/-! ## Words of a line -/

/-- The gap between two columns: what fills up the first, one space, what fills up the second. -/
def gap (first second : Nat) : List Char :=
  List.replicate first ' ' ++ ' ' :: List.replicate second ' '

private theorem allBlank_gap (first second : Nat) : AllBlank (gap first second) := by
  have hspaces : gap first second = List.replicate (first + (second + 1)) ' ' := by
    rw [gap, ← List.replicate_succ, List.replicate_append_replicate]
  intro c hc
  rw [hspaces] at hc
  rw [List.eq_of_mem_replicate hc]
  decide

private theorem gap_ne_nil (first second : Nat) : gap first second ≠ [] := by
  simp [gap]

private theorem isWord_decimal (n : Nat) : IsWord (decimal n) :=
  ⟨decimal_ne_nil n, fun _ hc => isBlank_of_isDigit (isDigit_of_mem_decimal hc)⟩

private theorem isWord_classLabel (nodeClass : Option NodeClass) :
    IsWord (classLabel nodeClass).toList := by
  -- What is left to check is letter by letter that no class has a blank in its name.
  rcases nodeClass with _ | _ | _ <;> simp [IsWord, classLabel, NodeClass.label] <;> decide

private theorem classLabel_inj {nodeClass nodeClass' : Option NodeClass} :
    classLabel nodeClass = classLabel nodeClass' ↔ nodeClass = nodeClass' := by
  refine ⟨fun h => ?_, congrArg classLabel⟩
  rcases nodeClass with _ | _ | _ <;> rcases nodeClass' with _ | _ | _ <;>
    first | rfl | exact absurd h (by decide)

def rowWords (row : NodeRow) : List (List Char) :=
  (classLabel row.nodeClass).toList ::
    numerals [row.chainDepth, row.proposeBlock, row.signBlock, row.submitBlock]

private theorem isWord_of_mem_rowWords (row : NodeRow) : ∀ word ∈ rowWords row, IsWord word :=
  List.forall_mem_cons.mpr
    ⟨isWord_classLabel row.nodeClass, forall_mem_numerals _ isWord_decimal⟩

private theorem rowWords_inj : rowWords row = rowWords row' ↔
    row.nodeClass = row'.nodeClass ∧ row.chainDepth = row'.chainDepth ∧
      row.proposeBlock = row'.proposeBlock ∧ row.signBlock = row'.signBlock ∧
      row.submitBlock = row'.submitBlock := by
  rw [rowWords, rowWords, List.cons.injEq, String.toList_inj, classLabel_inj, numerals_inj]
  simp only [List.cons.injEq, and_true]

/-! ## Columns of a line -/

/-- A line is its label and the words behind it, each after a gap. The label and the class are
filled up on the right and the numbers on the left. -/
theorem exists_columns_nodeLine (row : NodeRow) :
    ∃ columns, (nodeLine row).toList = withColumns (nodeLabel row).toList columns ∧
      columns.map Prod.snd = rowWords row ∧
      ∀ column ∈ columns, ∃ first second, column.1 = gap first second := by
  let depth := decimalString row.chainDepth.toNat
  let propose := decimalString row.proposeBlock.toNat
  let sign := decimalString row.signBlock.toNat
  let submit := decimalString row.submitBlock.toNat
  refine ⟨[(gap (16 - (nodeLabel row).length) 0, (classLabel row.nodeClass).toList),
    (gap (6 - (classLabel row.nodeClass).length) (8 - depth.length), depth.toList),
    (gap 0 (12 - propose.length), propose.toList), (gap 0 (12 - sign.length), sign.toList),
    (gap 0 (12 - submit.length), submit.toList)], ?_, ?_, ?_⟩
  · simp [nodeLine, nodeColumns, padRight, padLeft, withColumns, gap, depth, propose, sign, submit]
  · simp [rowWords, numerals, depth, propose, sign, submit, decimalString]
  · simp only [List.forall_mem_cons]
    exact ⟨⟨_, _, rfl⟩, ⟨_, _, rfl⟩, ⟨_, _, rfl⟩, ⟨_, _, rfl⟩, ⟨_, _, rfl⟩,
      List.forall_mem_nil _⟩

/-! ## Labels -/

def mark (leader : Bool) : String := if leader then "(*)" else "( )"

private theorem mark_inj {leader leader' : Bool} :
    mark leader = mark leader' ↔ leader = leader' := by
  cases leader <;> cases leader' <;> decide

private theorem length_toList_mark (leader : Bool) : (mark leader).toList.length = 3 := by
  cases leader <;> rfl

private theorem nodeLabel_eq (row : NodeRow) : nodeLabel row = row.name ++ mark row.leader := by
  cases hleader : row.leader <;> simp [nodeLabel, mark, hleader, String.append_assoc]

private theorem trimEnd_nodeLabel (row : NodeRow) :
    trimEnd (nodeLabel row).toList = (nodeLabel row).toList := by
  have hclosed : (nodeLabel row).toList =
      (row.name ++ "(" ++ if row.leader then "*" else " ").toList ++ [')'] := by
    rw [nodeLabel, String.toList_append]
    rfl
  apply trimEnd_eq_self
  intro c hc
  rw [hclosed, List.getLast?_concat] at hc
  rw [← Option.some.inj hc]
  decide

private theorem nodeLabel_inj :
    nodeLabel row = nodeLabel row' ↔ row.name = row'.name ∧ row.leader = row'.leader := by
  have hlengths : (mark row.leader).toList.length = (mark row'.leader).toList.length := by
    rw [length_toList_mark, length_toList_mark]
  rw [nodeLabel_eq, nodeLabel_eq, ← mark_inj]
  constructor
  · intro h
    have hlists := congrArg String.toList h
    rw [String.toList_append, String.toList_append] at hlists
    obtain ⟨hname, hmark⟩ := List.append_inj' hlists hlengths
    exact ⟨String.toList_inj.mp hname, String.toList_inj.mp hmark⟩
  · rintro ⟨hname, hmark⟩
    rw [hname, hmark]

/-! ## Lines -/

private theorem popWords_nodeLine (row : NodeRow) :
    ∃ rest, popWords 5 (nodeLine row).toList = (rest, rowWords row) ∧
      trimEnd rest = (nodeLabel row).toList := by
  obtain ⟨columns, hline, hwords, hgaps⟩ := exists_columns_nodeLine row
  have hcolumns : ∀ column ∈ columns, (column.1 ≠ [] ∧ AllBlank column.1) ∧ IsWord column.2 := by
    intro column hcolumn
    obtain ⟨first, second, hgap⟩ := hgaps column hcolumn
    refine ⟨?_, isWord_of_mem_rowWords row column.2 ?_⟩
    · rw [hgap]
      exact ⟨gap_ne_nil first second, allBlank_gap first second⟩
    · rw [← hwords]
      exact List.mem_map_of_mem hcolumn
  have hlength : columns.length = 5 := by
    rw [← List.length_map, hwords]
    rfl
  have hnone : AllBlank [] := nofun
  obtain ⟨blanks, hblanks, hpop⟩ := popWords_withColumns (nodeLabel row).toList hcolumns hnone
  rw [List.append_nil, ← hline, hlength, hwords] at hpop
  refine ⟨_, hpop, ?_⟩
  rw [trimEnd_append_blanks hblanks, trimEnd_nodeLabel]

private theorem label_and_words_of_nodeLine_eq (h : nodeLine row = nodeLine row') :
    nodeLabel row = nodeLabel row' ∧ rowWords row = rowWords row' := by
  obtain ⟨rest, hpop, hrest⟩ := popWords_nodeLine row
  obtain ⟨rest', hpop', hrest'⟩ := popWords_nodeLine row'
  rw [h, hpop', Prod.mk.injEq] at hpop
  obtain ⟨rfl, hwords⟩ := hpop
  exact ⟨String.toList_inj.mp (hrest.symm.trans hrest'), hwords.symm⟩

/-- A node line tells its row. Its last four words are the numerals of the chain depth and of the
three blocks, the word before them is the class, and the rest without the blanks at its end is the
name with its mark. So two lines are the same only for the same row. -/
theorem nodeLine_determines_row :
    (∀ row, ∃ rest,
      popWords 5 (nodeLine row).toList =
        (rest, [(classLabel row.nodeClass).toList, decimal row.chainDepth.toNat,
          decimal row.proposeBlock.toNat, decimal row.signBlock.toNat,
          decimal row.submitBlock.toNat]) ∧
      trimEnd rest = (row.name ++ if row.leader then "(*)" else "( )").toList) ∧
    ∀ row row', nodeLine row = nodeLine row' ↔
      row.name = row'.name ∧ row.nodeClass = row'.nodeClass ∧ row.leader = row'.leader ∧
        row.chainDepth = row'.chainDepth ∧ row.proposeBlock = row'.proposeBlock ∧
        row.signBlock = row'.signBlock ∧ row.submitBlock = row'.submitBlock := by
  refine ⟨fun row => ?_, fun row row' => ⟨fun h => ?_, ?_⟩⟩
  · obtain ⟨rest, hpop, hrest⟩ := popWords_nodeLine row
    rw [nodeLabel_eq, mark] at hrest
    exact ⟨rest, hpop, hrest⟩
  · obtain ⟨hlabel, hwords⟩ := label_and_words_of_nodeLine_eq h
    obtain ⟨hname, hleader⟩ := nodeLabel_inj.mp hlabel
    obtain ⟨hclass, hfigures⟩ := rowWords_inj.mp hwords
    exact ⟨hname, hclass, hleader, hfigures⟩
  · rintro ⟨hname, hclass, hleader, hdepth, hpropose, hsign, hsubmit⟩
    simp only [nodeLine, nodeLabel, hname, hclass, hleader, hdepth, hpropose, hsign, hsubmit]

-- A name that looks like a line, and a number that is too long for its column.
example :
    nodeLine
      { name := "n(*)      side 0", nodeClass := some .side, leader := false
        chainDepth := 18446744073709551615, proposeBlock := 1, signBlock := 2, submitBlock := 3 } =
      "n(*)      side 0( ) side   18446744073709551615            1            2            3" := by
  decide +kernel

end FleetTelemetry.Dashboard
