import FleetTelemetry.Dashboard.Plain
import FleetTelemetry.Proofs.Text.Encoding

/-!
# Drawings that break off

Writing commands one after another is writing their bytes at once, wherever the stream stops
accepting them. So a drawing that fails leaves the front of what it would have written, and since
every drawing starts by clearing the screen, the next one owes nothing to where it broke off.
-/

namespace FleetTelemetry.Dashboard

open Text

namespace Stream

private theorem write_append (stream : Stream) (bytes more : List UInt8) :
    stream.write (bytes ++ more) =
      match stream.write bytes with
      | (.ok (), stream) => stream.write more
      | (.error fault, stream) => (.error fault, stream) := by
  obtain ⟨accepted, room, fault, flushed, flushFault⟩ := stream
  cases room with
  | none => simp [write, hasRoom, part]
  | some room =>
    by_cases hroom : bytes.length ≤ room
    · have hrest : bytes.length + more.length ≤ room ↔ more.length ≤ room - bytes.length := by omega
      simp [write, hasRoom, part, hroom, hrest, List.take_append, List.take_of_length_le hroom,
        Nat.sub_sub]
    · -- The room ends within the first bytes, so nothing is left of it for the others.
      have hnone : room - bytes.length = 0 := by omega
      have hboth : ¬ bytes.length + more.length ≤ room := by omega
      have hleft : room - (bytes.length + more.length) = 0 := by omega
      simp [write, hasRoom, part, hroom, hboth, List.take_append, hnone, hleft]

private theorem hasRoom_eq_true_iff {stream : Stream} {count : Nat} :
    stream.hasRoom count = true ↔ ∀ room, stream.room = some room → count ≤ room := by
  simp [hasRoom, Option.all_eq_true]

private theorem part_prefix (stream : Stream) (bytes : List UInt8) :
    stream.part bytes <+: bytes := by
  unfold part
  split
  next => exact List.prefix_rfl
  next room _ => exact List.take_prefix room bytes

private theorem part_of_hasRoom {stream : Stream} {bytes : List UInt8}
    (h : stream.hasRoom bytes.length = true) : stream.part bytes = bytes := by
  unfold part
  split
  next => rfl
  next room hroom => exact List.take_of_length_le (hasRoom_eq_true_iff.mp h room hroom)

private theorem accepted_flush (stream : Stream) : stream.flush.2.accepted = stream.accepted := by
  unfold flush
  split <;> rfl

private theorem write_nil (stream : Stream) : stream.write [] = (.ok (), stream) := by
  obtain ⟨accepted, room, fault, flushed, flushFault⟩ := stream
  cases room <;> simp [write, hasRoom, part]

end Stream

private theorem writeCommands_eq_write (commands : List Command) (stream : Stream) :
    writeCommands commands stream = stream.write (commands.flatMap Command.bytes) := by
  induction commands generalizing stream with
  | nil => exact stream.write_nil.symm
  | cons command rest ih =>
    rw [List.flatMap_cons, Stream.write_append]
    rcases hwrite : stream.write command.bytes with ⟨⟨⟩ | ⟨⟩, after⟩
    · simp only [writeCommands, hwrite]
    · simp only [writeCommands, hwrite]
      exact ih after

/-! ## The bytes of a drawing -/

def plainBytes (view : View) : List UInt8 :=
  (plainText view).toUTF8.toList

private theorem plainText_eq (view : View) :
    plainText view =
      "\x1b[2J" ++ "\x1b[1;1H" ++ String.join ((plainLines view).map (· ++ "\x1b[1E")) := by
  apply String.toList_inj.mp
  simp [plainText, plainCommands, Command.text, String.toList_join, List.map_flatMap,
    List.flatMap_assoc, List.flatMap_map]

private theorem flatMap_bytes_plainCommands (view : View) :
    (plainCommands view).flatMap Command.bytes = plainBytes view := by
  rw [plainBytes, plainText, toList_toUTF8_join, List.flatMap_map]
  rfl

private theorem clearScreen_prefix_plainBytes (view : View) :
    "\x1b[2J".toUTF8.toList <+: plainBytes view := by
  rw [← flatMap_bytes_plainCommands]
  exact List.prefix_append _ _

private theorem drawPlain_eq (view : View) (stream : Stream) :
    drawPlain view stream =
      match stream.write (plainBytes view) with
      | (.ok (), stream) => stream.flush
      | (.error fault, stream) => (.error fault, stream) := by
  have hwrite : writeCommands (plainCommands view) stream = stream.write (plainBytes view) := by
    rw [writeCommands_eq_write, flatMap_bytes_plainCommands]
  rw [← hwrite]
  rfl

private theorem accepted_drawPlain (view : View) (stream : Stream) :
    (drawPlain view stream).2.accepted = stream.accepted ++ stream.part (plainBytes view) := by
  rw [drawPlain_eq]
  split
  next after hwrite =>
    obtain rfl : (stream.write (plainBytes view)).2 = after := congrArg Prod.snd hwrite
    exact Stream.accepted_flush _
  next fault after hwrite =>
    obtain rfl : (stream.write (plainBytes view)).2 = after := congrArg Prod.snd hwrite
    rfl

variable {view : View} {stream : Stream}

private theorem drawPlain_of_hasRoom (h : stream.hasRoom (plainBytes view).length = true) :
    drawPlain view stream = (stream.write (plainBytes view)).2.flush := by
  simp only [drawPlain_eq, Stream.write, h, if_true]

private theorem drawPlain_of_full (h : stream.hasRoom (plainBytes view).length = false) :
    drawPlain view stream = (.error stream.fault, (stream.write (plainBytes view)).2) := by
  simp only [drawPlain_eq, Stream.write, h, Bool.false_eq_true, if_false]

private theorem drawPlain_eq_ok (h : stream.hasRoom (plainBytes view).length = true)
    (hflush : stream.flushFault = none) :
    (drawPlain view stream).1 = .ok () ∧
      (drawPlain view stream).2.flushed = (drawPlain view stream).2.accepted.length := by
  simp only [drawPlain_of_hasRoom h, Stream.flush, Stream.write, hflush, and_self]

private theorem drawPlain_eq_error {fault : FileFault}
    (h : stream.hasRoom (plainBytes view).length = true) (hflush : stream.flushFault = some fault) :
    (drawPlain view stream).1 = .error fault := by
  simp only [drawPlain_of_hasRoom h, Stream.flush, Stream.write, hflush]

private theorem of_drawPlain_eq_ok (h : (drawPlain view stream).1 = .ok ()) :
    stream.hasRoom (plainBytes view).length = true ∧ stream.flushFault = none := by
  cases hroom : stream.hasRoom (plainBytes view).length with
  | false =>
    rw [drawPlain_of_full hroom] at h
    cases h
  | true =>
    cases hflush : stream.flushFault with
    | none => exact ⟨rfl, rfl⟩
    | some fault =>
      rw [drawPlain_eq_error hroom hflush] at h
      cases h

private theorem drawPlain_open (view : View) :
    (drawPlain view {}).1 = .ok () ∧ (drawPlain view {}).2.accepted = plainBytes view :=
  ⟨(drawPlain_eq_ok rfl rfl).1, accepted_drawPlain view {}⟩

/-- A drawing that fails leaves a clean front. A stream that never fails receives the clearing of
the screen, the way home and every line. A stream that fails after some of these bytes has taken
just the first ones, and drawing reports its fault. Drawing succeeds only when all bytes were
accepted and flushed. Wherever it stopped, the next drawing on a stream that has recovered adds the
whole of its own frame, from the clearing of the screen on. -/
theorem failed_drawing_leaves_front (view : View) (stream : Stream) :
    let whole := (drawPlain view {}).2.accepted
    let drawn := drawPlain view stream
    (drawPlain view {}).1 = .ok () ∧
    whole = ("\x1b[2J" ++ "\x1b[1;1H" ++
      String.join ((plainLines view).map (· ++ "\x1b[1E"))).toUTF8.toList ∧
    (∃ sent, sent <+: whole ∧ drawn.2.accepted = stream.accepted ++ sent) ∧
    (∀ room, stream.room = some room → room < whole.length →
      drawn.1 = .error stream.fault ∧ drawn.2.accepted = stream.accepted ++ whole.take room) ∧
    ((∀ room, stream.room = some room → whole.length ≤ room) →
      drawn.2.accepted = stream.accepted ++ whole ∧
      (stream.flushFault = none → drawn.1 = .ok ()) ∧
      ∀ fault, stream.flushFault = some fault → drawn.1 = .error fault) ∧
    (drawn.1 = .ok () → drawn.2.accepted = stream.accepted ++ whole ∧
      drawn.2.flushed = drawn.2.accepted.length) ∧
    ∀ (next : View) (recovered : Stream), recovered.accepted = drawn.2.accepted →
      recovered.flushFault = none →
      let more := (drawPlain next {}).2.accepted
      (∀ room, recovered.room = some room → more.length ≤ room) →
      (drawPlain next recovered).1 = .ok () ∧
        (drawPlain next recovered).2.accepted = drawn.2.accepted ++ more ∧
        "\x1b[2J".toUTF8.toList <+: more := by
  intro whole drawn
  obtain ⟨hopen, hwhole⟩ : _ ∧ whole = plainBytes view := drawPlain_open view
  have haccepted : drawn.2.accepted = stream.accepted ++ stream.part whole := by
    rw [hwhole]
    exact accepted_drawPlain view stream
  refine ⟨hopen, ?_, ⟨_, stream.part_prefix whole, haccepted⟩, ?_, ?_, ?_, ?_⟩
  · rw [hwhole, plainBytes, plainText_eq]
  · intro room hroom hless
    have hfull : stream.hasRoom (plainBytes view).length = false := by
      rw [Bool.eq_false_iff, ne_eq, Stream.hasRoom_eq_true_iff, ← hwhole]
      exact fun h => absurd (h room hroom) (Nat.not_le.mpr hless)
    refine ⟨congrArg Prod.fst (drawPlain_of_full hfull), ?_⟩
    rw [haccepted, Stream.part, hroom]
  · intro hroom
    have hfits := Stream.hasRoom_eq_true_iff.mpr hroom
    rw [haccepted, Stream.part_of_hasRoom hfits]
    rw [hwhole] at hfits
    exact ⟨rfl, fun hflush => (drawPlain_eq_ok hfits hflush).1,
      fun fault hflush => drawPlain_eq_error hfits hflush⟩
  · intro hok
    obtain ⟨hfits, hflush⟩ := of_drawPlain_eq_ok hok
    refine ⟨?_, (drawPlain_eq_ok hfits hflush).2⟩
    rw [haccepted, hwhole, Stream.part_of_hasRoom hfits]
  · intro next recovered haccepted' hflush more hroom
    obtain ⟨-, hmore⟩ : _ ∧ more = plainBytes next := drawPlain_open next
    have hfits := Stream.hasRoom_eq_true_iff.mpr hroom
    rw [hmore] at hfits
    refine ⟨(drawPlain_eq_ok hfits hflush).1, ?_, ?_⟩
    · rw [accepted_drawPlain, haccepted', Stream.part_of_hasRoom hfits, hmore]
    · rw [hmore]
      exact clearScreen_prefix_plainBytes next

def quietView : View where
  elapsed := .ofSeconds 5
  generatedRate := 0
  confirmedRate := 0
  chainDepth := 0
  gas := 0
  proposePerBlock := 0
  signPerBlock := 0
  submitPerBlock := 0
  nodes := [⟨"n", none, true, 0, 0, 0, 0⟩]

/-- A drawing that breaks off between the two digits of the way home, and the one after it. -/
theorem failed_drawing_leaves_front_midway :
    let drawn := drawPlain quietView { accepted := [65], room := some 7 }
    drawn.1 = .error .diskFull ∧ drawn.2.accepted = [65, 27, 91, 50, 74, 27, 91, 49] ∧
      (drawPlain quietView { accepted := drawn.2.accepted }).2.accepted =
        [65, 27, 91, 50, 74, 27, 91, 49] ++ (drawPlain quietView {}).2.accepted := by
  intro drawn
  obtain ⟨-, -, -, hbroken, -, -, hnext⟩ :=
    failed_drawing_leaves_front quietView { accepted := [65], room := some 7 }
  have hlong : 7 < (drawPlain quietView {}).2.accepted.length := by decide +kernel
  have hfront : (drawPlain quietView {}).2.accepted.take 7 = [27, 91, 50, 74, 27, 91, 49] := by
    decide +kernel
  obtain ⟨hfault, haccepted⟩ := hbroken 7 rfl hlong
  rw [hfront] at haccepted
  obtain ⟨-, hagain, -⟩ := hnext quietView { accepted := drawn.2.accepted } rfl rfl nofun
  exact ⟨hfault, haccepted, hagain.trans (congrArg (· ++ _) haccepted)⟩

end FleetTelemetry.Dashboard
