import CecRelay.Proofs.Queue.Numbering

/-!
# No event is lost

Whatever happens to a queue and whenever its process dies, what stands at its path then starts, behind the cursor,
with lines of the log that carry the last events stored, and everything stored before those has been received
(`Life.Reached.keeps`). The next queue hands these lines out, unless the last of them has the greatest number: then it
does not open. For that number there have to be 2⁶⁴ events first, since the numbers count them (`Life.Reached.issued`).
-/

namespace CecRelay

open Lines

/-- Where nobody has it open nothing is left beside the history. -/
theorem History.adopt_down (h : History) (place : Place) : h.adopt (.down place) = h := by
  rw [adopt, Life.left, List.append_nil]

namespace Life

variable {l : Life} {h : History}

/-- Whatever can be reached, the process may die there. -/
theorem Reached.down (hl : Reached l h) : Reached (.down l.place) (h.adopt l) := by
  cases l with
  | down place => rwa [h.adopt_down]
  | up v => exact .died hl

/-- Every line that is left carries an event. -/
theorem Holds.length_left {v : Service} (hu : Holds (.up v) h) : (Life.up v).left.length = v.left.length := by
  obtain ⟨-, hthere, o, hs, -⟩ := hu
  cases hs with
  | gone hgone _ _ _ =>
    rw [hthere] at hgone
    cases hgone
  | standing w _ hcore _ _ _ =>
    have hlen := congrArg List.length (map_left hcore)
    rwa [List.length_map, List.length_map, eq_comm] at hlen

/-- The events of the history have been numbered one by one. -/
theorem Reached.issued (hl : Reached l h) : ∃ ids, Issued l ids h.accepted.length := by
  induction hl with
  | bare hbare => exact ⟨[], .bare hbare⟩
  | opened _ hopen ih =>
    obtain ⟨ids, hids⟩ := ih
    exact ⟨ids, .opened hids hopen⟩
  | notOpened _ hopen ih =>
    obtain ⟨ids, hids⟩ := ih
    exact ⟨ids, .notOpened hids hopen⟩
  | @stepped v v' h a _ hstep hthere ih =>
    obtain ⟨ids, hids⟩ := ih
    have hstored : (h.add v a).accepted.length = h.accepted.length + a.stored.length := by
      cases a with
      | accepted | untold => exact List.length_append
      | silent | received => rfl
    rw [hstored]
    exact ⟨_, .stepped hids hstep hthere⟩
  | @died v h hl ih =>
    obtain ⟨ids, hids⟩ := ih
    refine ⟨ids, ?_⟩
    rw [History.adopt, List.length_append, hl.holds.length_left]
    exact .died hids

/-- While there are numbers left the next queue opens, and hands out what it finds. -/
theorem Reached.handsOut (hl : Reached l h) (hfew : (h.accepted ++ l.left).length < 2 ^ 64) {out : List Bytes}
    (hout : l.place.Offers out) : l.place.HandsOut out := by
  obtain ⟨ids, hids⟩ := hl.down.issued
  obtain ⟨n, hle, hn, -⟩ := hids.counts hfew
  rcases hopen : Journal.open l.place with ⟨place', result⟩
  obtain ⟨j, rfl⟩ := (hn.opens hopen).2.1 (hle.trans_lt hfew)
  have hhands : l.place.HandsOut (j.handOut ⟨place', none⟩) := ⟨place', j, hopen, rfl⟩
  rwa [hhands.offers.unique hout] at hhands

end Life
end CecRelay
