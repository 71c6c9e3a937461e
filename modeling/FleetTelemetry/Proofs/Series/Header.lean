import FleetTelemetry.Proofs.Json.Records
import FleetTelemetry.Series.Header

/-!
# Printed headers

A header is read back from its line with every field name and kind intact, and the line has no
control character in it.
-/

namespace FleetTelemetry

open Json Text

private theorem FieldKind.ofLabel?_label (kind : FieldKind) : ofLabel? kind.label = some kind := by
  cases kind <;> decide

namespace SeriesHeader

private theorem kindReader_printed (kind : FieldKind) :
    ReadsPrinted kindReader (printString kind.label) kind := by
  intro rest _
  rw [encode_printString]
  apply Reads.bind (Reads.token (by decide) _)
  apply Reads.bind (Reads.drop 0x22 _)
  apply Reads.bind (string_printed kind.label rest)
  simp only [FieldKind.ofLabel?_label]
  exact Reads.pure kind rest

private theorem fieldReader_printed (field : SeriesField) :
    ReadsPrinted fieldReader (printField field) field := by
  have hname := stringValue_printed "a string" field.name
  have hkind := kindReader_printed field.kind
  apply record_printed
  · apply ReadsMembers.cons rfl (by simp) (hname.map _)
    apply ReadsMembers.cons rfl (by simp) (hkind.map _)
    exact ReadsMembers.nil _
  · rfl

private theorem startsItem_printField (field : SeriesField) : StartsItem (printField field) := by
  refine ⟨0x7B, _, encode_cons_of_lt (by decide) _, by decide, by decide⟩

private theorem fieldsReader_printed (fields : List SeriesField) :
    ReadsPrinted fieldsReader (printList (fields.map printField)) fields := by
  intro rest _
  have hclose : encode [']'] = [0x5D] := by decide
  rw [printList, List.cons_append, encode_cons_of_lt (by decide), encode_append, hclose,
    List.cons_append, List.append_assoc, List.singleton_append]
  apply Reads.bind (Reads.token (by decide) _)
  apply Reads.bind (Reads.drop _ _)
  exact items_printed fieldReader_printed startsItem_printField fields rest

private theorem reader_printed (header : SeriesHeader) :
    ReadsPrinted reader header.print header := by
  have hstep := natural_printed "u64" header.step
  have hheartbeat := natural_printed "u64" header.heartbeat
  have hrows := natural_printed "usize" header.rows
  have hfields := fieldsReader_printed header.fields
  apply record_printed
  · apply ReadsMembers.cons rfl (by simp) (hstep.map _)
    apply ReadsMembers.cons rfl (by simp) (hheartbeat.map _)
    apply ReadsMembers.cons rfl (by simp) (hrows.map _)
    apply ReadsMembers.cons rfl (by simp) (hfields.map _)
    exact ReadsMembers.nil _
  · rfl

theorem parse_print (header : SeriesHeader) : parse header.print = .ok header :=
  (reader_printed header).run_eq_ok

private theorem printable_printField (field : SeriesField) : Printable (printField field) := by
  apply printable_printObject
  intro member hmember
  simp only [List.mem_cons, List.not_mem_nil, or_false] at hmember
  obtain rfl | rfl := hmember
  · exact printable_printString field.name
  · exact printable_printString field.kind.label

theorem printable_print (header : SeriesHeader) : Printable header.print := by
  apply printable_printObject
  intro member hmember
  simp only [List.mem_cons, List.not_mem_nil, or_false] at hmember
  obtain rfl | rfl | rfl | rfl := hmember
  · exact printable_printNatural header.step.toNat
  · exact printable_printNatural header.heartbeat.toNat
  · exact printable_printNatural header.rows.toNat
  · apply printable_printList
    intro item hitem
    obtain ⟨field, -, rfl⟩ := List.mem_map.mp hitem
    exact printable_printField field

end SeriesHeader

end FleetTelemetry
