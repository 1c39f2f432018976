import CecRelay.Bench.StandIn
import CecRelay.Proofs.Text.LineStream

/-!
# The keys in the output of the client

Somebody who takes the keys of a client gets those of the lines in front of the first line that is no text, in
order, in whatever pieces the output comes (`StandIn.keys_of_output`). A line that is no text reports no key itself, but
it also ends the reading: the keys of the lines behind it are lost. So all keys of the output arrive exactly if no
line behind one that is no text reports a key.
-/

namespace CecRelay

open LineStream

/-- A line that is no text reports no key. -/
theorem KeyLine.ofBytes?_of_not_text {line : Bytes} (h : isText line = false) : ofBytes? line = none := by
  have hnone : Utf8.decode? line = none := Option.isNone_iff_eq_none.1 (Option.isSome_eq_false_iff.1 h)
  rw [ofBytes?, hnone]
  rfl

/-- The keys of a stream that has ended. -/
theorem Client.keysOf_eq (stream : Bytes) :
    keysOf stream = ((rawLines stream).takeWhile isText).filterMap KeyLine.ofBytes? := by
  rw [keysOf, keysOfLines, textLines, decoded_eq, List.filterMap_filterMap]
  rfl

/-- What is left out behind the first element of which `p` does not hold makes no difference exactly if behind such
an element there is nothing that counts. -/
theorem filterMap_takeWhile_eq_iff {α β : Type} {p : α → Bool} {f : α → Option β} (hnot : ∀ x, p x = false → f x = none)
    (xs : List α) :
    (xs.takeWhile p).filterMap f = xs.filterMap f ↔
      ∀ before x after, xs = before ++ x :: after → p x = false → ∀ y ∈ after, f y = none := by
  induction xs with
  | nil => exact iff_of_true rfl fun before x after heq => by simp at heq
  | cons x xs ih =>
    cases hx : p x with
    | true =>
      have hcancel : ((x :: xs).takeWhile p).filterMap f = (x :: xs).filterMap f ↔
          (xs.takeWhile p).filterMap f = xs.filterMap f := by
        rw [List.takeWhile_cons_of_pos hx]
        cases hf : f x <;> simp [hf]
      rw [hcancel, ih]
      constructor
      · intro h before y after heq hy
        cases before with
        | nil =>
          cases heq
          rw [hx] at hy
          cases hy
        | cons z before =>
          cases heq
          exact h before y after rfl hy
      · intro h before y after heq hy
        exact h (x :: before) y after (by rw [heq]; rfl) hy
    | false =>
      rw [List.takeWhile_cons_of_neg (by simp [hx]), List.filterMap_cons, hnot x hx, List.filterMap_nil, eq_comm,
        List.filterMap_eq_nil_iff]
      constructor
      · intro h before y after heq _ z hz
        cases before with
        | nil =>
          cases heq
          exact h z hz
        | cons w before =>
          cases heq
          exact h z (by simp [hz])
      · exact fun h => h [] x xs rfl hx

namespace Bench.StandIn

variable {s : StandIn}

/-- What is printed in pieces reaches whoever takes the keys. -/
theorem keys_of_pieces (hattached : s.attached = true) (hlistening : s.listening = true) (hruns : s.running = true)
    (pieces : List Bytes) :
    (pieces.foldl print s).stop.keys = s.keys ++ Client.keysOfLines (s.reader.readAll pieces) := by
  induction pieces generalizing s with
  | nil => simp [stop, pushKeys, hattached, hlistening, hruns, Reader.readAll]
  | cons piece pieces ih =>
    have hpush : s.print piece = { s with
        keys := s.keys ++ Client.keysOfLines (s.reader.push piece).1
        reader := (s.reader.push piece).2 } := by
      simp [print, pushKeys, hattached, hlistening]
    rw [List.foldl_cons, ih (by rw [hpush]; exact hattached) (by rw [hpush]; exact hlistening)
      (by rw [hpush]; exact hruns), hpush, Reader.readAll, List.append_assoc, Client.keysOfLines, Client.keysOfLines,
      Client.keysOfLines, List.filterMap_append]

/-- A client is started, its keys are asked for, and it prints any bytes in any pieces until it ends. The keys that
arrive are those of the lines in front of the first line that is no text, in order. These are all keys that the lines
report exactly if no line behind one that is no text reports a key. -/
theorem keys_of_output (hlistening : s.listening = true) (pieces : List Bytes) :
    (pieces.foldl print (adapter.attach s.begin)).stop.keys =
      s.keys ++ ((rawLines pieces.flatten).takeWhile isText).filterMap KeyLine.ofBytes? ∧
    ((pieces.foldl print (adapter.attach s.begin)).stop.keys =
        s.keys ++ (rawLines pieces.flatten).filterMap KeyLine.ofBytes? ↔
      ∀ before line after, rawLines pieces.flatten = before ++ line :: after → isText line = false →
        ∀ later ∈ after, KeyLine.ofBytes? later = none) := by
  have hkeys : (pieces.foldl print (adapter.attach s.begin)).stop.keys =
      s.keys ++ ((rawLines pieces.flatten).takeWhile isText).filterMap KeyLine.ofBytes? := by
    have harrive := keys_of_pieces (s := adapter.attach s.begin) rfl hlistening rfl pieces
    rw [harrive, ← Client.keysOf_eq, Client.keysOf, ← Reader.readAll_eq]
    rfl
  refine ⟨hkeys, ?_⟩
  rw [hkeys, List.append_cancel_left_eq]
  exact filterMap_takeWhile_eq_iff (fun _ => KeyLine.ofBytes?_of_not_text) _

/-- A line of one byte that is no text, and then a press. -/
def lostPress : List Bytes := [[0xFF, newline], Utf8.ofString "key pressed: up (1)\n"]

/-- The press is lost. -/
theorem keys_of_output_lost :
    ({ script := {} } : StandIn).listening = true ∧
      rawLines lostPress.flatten = [[0xFF], Utf8.ofString "key pressed: up (1)"] ∧
      (rawLines lostPress.flatten).filterMap KeyLine.ofBytes? = [⟨1, 0⟩] ∧
      (lostPress.foldl print (adapter.attach { script := {} : StandIn }.begin)).stop.keys = [] := by
  have hlines : rawLines lostPress.flatten = [[0xFF], Utf8.ofString "key pressed: up (1)"] := by decide +kernel
  have hreported : (rawLines lostPress.flatten).filterMap KeyLine.ofBytes? = [⟨1, 0⟩] := by decide +kernel
  refine ⟨rfl, hlines, hreported, ?_⟩
  obtain ⟨hkeys, -⟩ := keys_of_output (s := { script := {} }) rfl lostPress
  rw [hkeys, hlines]
  decide +kernel

end Bench.StandIn
end CecRelay
