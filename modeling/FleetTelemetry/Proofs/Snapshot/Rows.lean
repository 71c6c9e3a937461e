import FleetTelemetry.Proofs.Snapshot.Payload
import FleetTelemetry.Proofs.Text.Columns

/-!
# Rows of logs

The row of a log is a line of fifteen numerals, the time and every field of the sample. So the row
tells both, and no two samples share a row.
-/

namespace FleetTelemetry.Snapshot

open Text

variable {s s' : Snapshot} {timestamp timestamp' : UInt64}

/-- The time and the fields of a sample in the order of a log row. The token is zero or one. -/
def logValues (s : Snapshot) (timestamp : UInt64) : List UInt64 :=
  [timestamp, s.generatedTransactions, s.confirmedTransactions, s.chainDepth,
   if s.token then 1 else 0, s.proposeBlock, s.signBlock, s.submitBlock, s.proposeLatency,
   s.signLatency, s.submitLatency, s.gas, s.proposeNum, s.signNum, s.submitNum]

private theorem toList_csvRow (s : Snapshot) (timestamp : UInt64) :
    (s.csvRow timestamp).toList = commaLine (numerals (s.logValues timestamp)) :=
  String.toList_ofList

private theorem logValues_inj :
    s.logValues timestamp = s'.logValues timestamp' ↔ timestamp = timestamp' ∧ s = s' := by
  constructor
  · intro h
    have hfields : Field.all.map s.get = Field.all.map s'.get := (List.cons.inj h).2
    refine ⟨(List.cons.inj h).1, ext_get fun field => ?_⟩
    exact List.map_inj_left.mp hfields field field.mem_all
  · rintro ⟨rfl, rfl⟩
    rfl

/-- The row of a sample is the one text that ends at its only line feed and has the canonical
numerals of the time and of the fourteen fields, in this order and nothing else, between its commas.
They are read back as the numbers, so two rows are the same only for the same sample at the same
time. -/
theorem csvRow_determines_sample (s : Snapshot) (timestamp : UInt64) :
    (∀ row : String, row = s.csvRow timestamp ↔
      ∃ body, row.toList = body ++ ['\n'] ∧ '\n' ∉ body ∧
        List.Forall₂ IsCanonical (pieces ',' body)
          ((s.logValues timestamp).map UInt64.toNat)) ∧
    (∃ body, (s.csvRow timestamp).toList = body ++ ['\n'] ∧ (pieces ',' body).length = 15 ∧
      (pieces ',' body).map word? = (s.logValues timestamp).map some) ∧
    ∀ s' timestamp', s.csvRow timestamp = s'.csvRow timestamp' ↔
      timestamp = timestamp' ∧ s = s' := by
  refine ⟨fun row => ?_, ?_, fun s' timestamp' => ?_⟩
  · rw [← String.toList_inj, toList_csvRow]
    exact eq_commaLine_numerals_iff
  · refine ⟨_, toList_csvRow s timestamp, ?_, ?_⟩
    · rw [logValues, pieces_intercalate_numerals]
      rfl
    · rw [logValues, pieces_intercalate_numerals, map_word?_numerals]
  · rw [← String.toList_inj, toList_csvRow, toList_csvRow, ← logValues_inj]
    exact commaLine_numerals_inj

example :
    ({ generatedTransactions := 10, confirmedTransactions := 8, chainDepth := 5, token := true,
       gas := 7, submitNum := 3 } : Snapshot).csvRow 1700000000 =
      "1700000000,10,8,5,1,0,0,0,0,0,0,7,0,0,3\n" := by
  decide +kernel

end FleetTelemetry.Snapshot
