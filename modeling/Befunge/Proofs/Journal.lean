import Befunge.Proofs.Rounds

/-!
# What the turns of a tick tell

All that happens in the turns of a tick is entered into the journal.  `World.Tells` says
what can be relied on between two moments of a tick: the journal is only added to, records
are of the present tick and counted, and pointers that are made get new numbers.

A turn that no fault broke off adds one record, of the pointer whose turn it was, and a
round adds the records of its turns in order (`World.round_reports`).
-/

namespace Befunge

namespace Event

/-- The records of a journal, which has the latest event first, in the order of time. -/
def records (journal : List Event) : List TraceRecord := journal.reverse.filterMap record?

theorem records_append (news journal : List Event) :
    records (news ++ journal) = records journal ++ records news := by
  simp [records]

theorem records_cons_of_none {e : Event} (h : e.record? = none) (journal : List Event) :
    records (e :: journal) = records journal := by
  simp [records, h]

theorem records_eq_nil {news : List Event} (h : ∀ e ∈ news, e.channel ≠ .machine) :
    records news = [] := by
  refine List.filterMap_eq_nil_iff.mpr fun e he => ?_
  have hchannel := h e (List.mem_reverse.mp he)
  cases e with
  | executed record => exact absurd rfl hchannel
  | _ => rfl

end Event

/-! ## Between two moments of a tick -/

namespace World

/-- The events `news` happened between two moments of a tick. -/
structure Tells (w w' : World) (news : List Event) : Prop where
  journal : w'.journal = news ++ w.journal
  ticks : w'.tally.ticks = w.tally.ticks
  nextId : w.nextId ≤ w'.nextId
  /-- Pointers that were made got new numbers. -/
  spawned : ∀ parent child position, .spawned parent child position ∈ news → w.nextId ≤ child
  /-- Records are of the present tick. -/
  present : ∀ r ∈ Event.records news, r.tick = w.tally.ticks
  /-- Records are counted. -/
  instructions : w'.tally.instructions = w.tally.instructions + (Event.records news).length

namespace Tells

theorem refl (w : World) : w.Tells w [] where
  journal := rfl
  ticks := rfl
  nextId := Int.le_refl _
  spawned := by simp
  present := by simp [Event.records]
  instructions := rfl

theorem trans {w w₁ w₂ : World} {news₁ news₂ : List Event} (h₁ : w.Tells w₁ news₁)
    (h₂ : w₁.Tells w₂ news₂) : w.Tells w₂ (news₂ ++ news₁) where
  journal := by rw [h₂.journal, h₁.journal, List.append_assoc]
  ticks := h₂.ticks.trans h₁.ticks
  nextId := Int.le_trans h₁.nextId h₂.nextId
  spawned parent child position hmem := by
    rcases List.mem_append.mp hmem with hmem | hmem
    · exact Int.le_trans h₁.nextId (h₂.spawned parent child position hmem)
    · exact h₁.spawned parent child position hmem
  present r hr := by
    rw [Event.records_append] at hr
    rcases List.mem_append.mp hr with hr | hr
    · exact h₁.present r hr
    · rw [h₂.present r hr, h₁.ticks]
  instructions := by
    rw [h₂.instructions, h₁.instructions, Event.records_append, List.length_append, Nat.add_assoc]

/-- An event that is no record is entered. -/
theorem enter {w w₁ w₂ : World} {news : List Event} {e : Event} (h : w.Tells w₁ news)
    (hrecord : e.record? = none) (hjournal : w₂.journal = e :: w₁.journal)
    (hticks : w₂.tally.ticks = w₁.tally.ticks)
    (hinstructions : w₂.tally.instructions = w₁.tally.instructions)
    (hnextId : w₁.nextId ≤ w₂.nextId)
    (hspawned : ∀ parent child position, e = .spawned parent child position → w₁.nextId ≤ child) :
    w.Tells w₂ (e :: news) where
  journal := by rw [hjournal, h.journal, List.cons_append]
  ticks := hticks.trans h.ticks
  nextId := Int.le_trans h.nextId hnextId
  spawned parent child position hmem := by
    rcases List.mem_cons.mp hmem with hnew | hold
    · exact Int.le_trans h.nextId (hspawned parent child position hnew.symm)
    · exact h.spawned parent child position hold
  present r hr := by
    rw [Event.records_cons_of_none hrecord] at hr
    exact h.present r hr
  instructions := by
    rw [hinstructions, h.instructions, Event.records_cons_of_none hrecord]

end Tells

/-- An errand tells nothing about pointers. -/
theorem Undisturbed.tells {w w' : World} (h : w.Undisturbed w') :
    ∃ remarks, w.Tells w' remarks ∧ ∀ e ∈ remarks, e.channel ≠ .machine := by
  obtain ⟨remarks, hjournal, hremarks⟩ := h.journal
  have hrecords := Event.records_eq_nil hremarks
  refine ⟨remarks, ⟨hjournal, ?_, ?_, ?_, ?_, ?_⟩, hremarks⟩
  · rw [h.tally]
  · rw [h.nextId]
  · exact fun parent child position hmem => absurd rfl (hremarks _ hmem)
  · simp [hrecords]
  · simp [hrecords, h.tally]

end World

/-- What a pointer does, before it is recorded, tells of no record and of no other pointer that
stopped. -/
theorem Deeds.tells {ip ip' : Pointer} {w w' : World} (h : Deeds ip w ip' w') :
    ∃ news, w.Tells w' news ∧ Event.records news = [] ∧
      ∀ id position, .stopped id position ∈ news → id = ip.id := by
  induction h with
  | start => exact ⟨[], .refl w, rfl, by simp⟩
  | errand _ _ _ hw _ ih =>
      obtain ⟨news, htells, hrecords, hstopped⟩ := ih
      obtain ⟨remarks, hnext, hremarks⟩ := hw.tells
      refine ⟨remarks ++ news, htells.trans hnext, ?_, fun id position hmem => ?_⟩
      · rw [Event.records_append, hrecords, Event.records_eq_nil hremarks, List.nil_append]
      · rcases List.mem_append.mp hmem with hmem | hmem
        · exact absurd rfl (hremarks _ hmem)
        · exact hstopped id position hmem
  | @split ip₁ w₁ _ ih =>
      obtain ⟨news, htells, hrecords, hstopped⟩ := ih
      refine ⟨.spawned ip₁.id (w₁.child ip₁).id (w₁.child ip₁).position :: news,
        htells.enter rfl rfl rfl rfl ?_ ?_, ?_, fun id position hmem => ?_⟩
      · rw [World.split_nextId]
        omega
      · intro parent child position hnew
        obtain ⟨-, rfl, -⟩ := Event.spawned.inj hnew
        rw [World.child_id]
      · rw [Event.records_cons_of_none rfl, hrecords]
      · exact hstopped id position (by simpa using hmem)
  | @stop ip₁ w₁ h₁ _ ih =>
      obtain ⟨news, htells, hrecords, hstopped⟩ := ih
      refine ⟨.stopped ip₁.id ip₁.position :: news,
        htells.enter rfl rfl rfl rfl (Int.le_refl _) (by simp), ?_, fun id position hmem => ?_⟩
      · rw [Event.records_cons_of_none rfl, hrecords]
      · rcases List.mem_cons.mp hmem with hmem | hmem
        · obtain ⟨rfl, -⟩ := Event.stopped.inj hmem
          exact h₁.id
        · exact hstopped id position hmem
  | quit code _ ih =>
      obtain ⟨news, htells, hrecords, hstopped⟩ := ih
      refine ⟨.quit code :: news,
        htells.enter rfl rfl rfl rfl (Int.le_refl _) (by simp), ?_, fun id position hmem => ?_⟩
      · rw [Event.records_cons_of_none rfl, hrecords]
      · exact hstopped id position (by simpa using hmem)

/-! ## Turns and rounds -/

namespace World

/-- The events `news` are those of turns that the pointers with the numbers `who` had. -/
structure Reports (w w' : World) (who : List Int) (news : List Event) : Prop
    extends Tells w w' news where
  /-- Each turn was recorded once. -/
  recorded : (Event.records news).map (·.id) = who
  /-- Pointers are stopped only in their turns. -/
  stopped : ∀ id position, .stopped id position ∈ news → id ∈ who

theorem Reports.trans {w w₁ w₂ : World} {who₁ who₂ : List Int} {news₁ news₂ : List Event}
    (h₁ : w.Reports w₁ who₁ news₁) (h₂ : w₁.Reports w₂ who₂ news₂) :
    w.Reports w₂ (who₁ ++ who₂) (news₂ ++ news₁) where
  toTells := h₁.toTells.trans h₂.toTells
  recorded := by
    rw [Event.records_append, List.map_append, h₁.recorded, h₂.recorded]
  stopped id position hmem := by
    rcases List.mem_append.mp hmem with hmem | hmem
    · exact List.mem_append_right _ (h₂.stopped id position hmem)
    · exact List.mem_append_left _ (h₁.stopped id position hmem)

theorem perform_id (w : World) (ip : Pointer) : (w.perform ip).pointer.id = ip.id := by
  have hturn := w.perform_turn ip
  generalize w.perform ip = r at hturn
  cases hturn with
  | broken f hdeeds => exact hdeeds.id
  | recorded record pauses fault hdeeds _ _ => exact hdeeds.id

/-- A turn that no fault broke off is recorded. -/
theorem perform_reports {w : World} {ip : Pointer} (h : (w.perform ip).fault = none) :
    ∃ news, w.Reports (w.perform ip).world [ip.id] news := by
  have hturn := w.perform_turn ip
  generalize w.perform ip = r at hturn h
  cases hturn with
  | broken f hdeeds => cases h
  | @recorded ip' w' record pauses fault hdeeds htick hid =>
      obtain ⟨news, htells, hrecords, hstopped⟩ := hdeeds.tells
      have hnews : Event.records (.executed record :: news) = [record] := by
        rw [← List.singleton_append, Event.records_append, hrecords]
        rfl
      refine ⟨.executed record :: news, ⟨?_, htells.ticks, htells.nextId, ?_, ?_, ?_⟩, ?_, ?_⟩
      · exact congrArg (.executed record :: ·) htells.journal
      · exact fun parent child position hmem =>
          htells.spawned parent child position (by simpa using hmem)
      · intro r hr
        rw [hnews, List.mem_singleton] at hr
        rw [hr, htick, htells.ticks]
      · have hcount := htells.instructions
        rw [hrecords] at hcount
        rw [hnews]
        exact congrArg (· + 1) hcount
      · rw [hnews, List.map_singleton, hid, hdeeds.id]
      · exact fun id position hmem =>
          List.mem_singleton.mpr (hstopped id position (by simpa using hmem))

/-- A round that no fault broke off records the turns of some of the pointers, from the first
one on, and of all of them if it is complete. -/
theorem round_reports (w : World) (ps : List Pointer) (h : (w.round ps).ending.fault = none) :
    ∃ who news, w.Reports (w.round ps).world who news ∧ who <+: ps.map (·.id) ∧
      ((w.round ps).ending = .complete → who = ps.map (·.id)) := by
  obtain ⟨done, yet, ⟨hids, hreports⟩, -, hcomplete⟩ :=
    round_preserves
      (P := fun had yet w' fault => (had ++ yet).map (·.id) = ps.map (·.id) ∧
        (fault = none → ∃ news, w.Reports w' (had.map (·.id)) news))
      (fun had ip yet w' h => by
        obtain ⟨hids, hreports⟩ := h
        refine ⟨?_, fun hfault => ?_⟩
        · simpa [perform_id] using hids
        · obtain ⟨news, hnews⟩ := hreports rfl
          obtain ⟨news', hnews'⟩ := perform_reports hfault
          refine ⟨news' ++ news, ?_⟩
          rw [List.map_append, List.map_singleton, perform_id]
          exact hnews.trans hnews')
      ps [] w ⟨rfl, fun _ => ⟨[], .refl w, rfl, by simp⟩⟩
  rw [List.nil_append] at hids hreports
  obtain ⟨news, hnews⟩ := hreports h
  refine ⟨done.map (·.id), news, hnews, ?_, fun hending => ?_⟩
  · rw [← hids, List.map_append]
    exact List.prefix_append _ _
  · rw [← hids, hcomplete hending, List.append_nil]

/-- The turns that were recorded can be told from the world. -/
theorem Reports.unique {w w' : World} {who who' : List Int} {news news' : List Event}
    (h : w.Reports w' who news) (h' : w.Reports w' who' news') : who = who' := by
  have hnews : news = news' := List.append_cancel_right (h.journal.symm.trans h'.journal)
  rw [← h.recorded, ← h'.recorded, hnews]

/-- A round that a pointer ends records the turns up to that of this pointer. -/
theorem HaltedBy.reports {w : World} {ps before : List Pointer} {halter : Pointer}
    (h : w.HaltedBy ps before halter) (hsmooth : (w.round ps).ending.fault = none) :
    ∃ news, w.Reports (w.round ps).world ((before ++ [halter]).map (·.id)) news := by
  obtain ⟨hfault, hworld⟩ := h.round_world hsmooth
  obtain ⟨who, news, hbefore, -, hcomplete⟩ :=
    w.round_reports before (by rw [h.goesOn, RoundEnd.fault])
  obtain ⟨news', hhalter⟩ := perform_reports hfault
  rw [hcomplete h.goesOn] at hbefore
  rw [hworld, List.map_append]
  exact ⟨news' ++ news, hbefore.trans hhalter⟩

end World

end Befunge
