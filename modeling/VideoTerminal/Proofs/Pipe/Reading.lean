import VideoTerminal.Pipe.Reading

/-!
# What readings take

A run that is read is the longest beginning of what can be read that has no control and is not too
long.  `Pipe.takeRun` says what that is; this file proves that the steps of a reading, whatever the
buffer, the pushed back characters and the chunks on their way are, come to exactly that:

* `nextStep_cases` — a step takes the first character of the contents, or there is none;
* `readStep_cases` — a step ends with the run of what was taken and of the contents, or it moves
  characters from the contents to what was taken;
* `readOn_cases` — without the writer the run ends, and where there is none the pipe is exhausted.

`Pipe.ReadsTo` is what every step leaves: the writer's end as it was, and the channel as it was or
with all its messages received.
-/

namespace VideoTerminal.Pipe

/-! ## What a step leaves -/

/-- What the steps of a reading change besides the reader's buffer: nothing, or everything on its
way is received and the reader may notice the end. -/
def ReadsTo (p q : Pipe) : Prop :=
  q.held = p.held ∧
    ((q.channel = p.channel ∧ q.reader.ended = p.reader.ended) ∨
      (q.channel = p.channel.receiveAll.2 ∧
        q.reader.ended =
          (p.reader.ended || p.channel.messages.any Message.isClose || !p.channel.hasWriter)))

/-- Everything has been read and received, and the reader knows of the end if `ended`. -/
structure Exhausted (p : Pipe) (ended : Bool) : Prop where
  contents : p.contents = []
  messages : p.channel.messages = []
  ended : p.reader.ended = ended

/-- Restocking is part of reading. -/
theorem readsTo_restock (p : Pipe) (waiting : Bool) : p.ReadsTo (p.restock waiting).1 :=
  ⟨held_restock p waiting, Or.inr ⟨channel_restock p waiting, ended_restock p waiting⟩⟩

/-- Reading closes nothing. -/
theorem ReadsTo.closed_eq {p q : Pipe} (h : p.ReadsTo q) :
    q.channel.closed = p.channel.closed := by
  rcases h.2 with ⟨hc, -⟩ | ⟨hc, -⟩
  · rw [hc]
  · rw [hc]
    rfl

theorem ReadsTo.refl (p : Pipe) : p.ReadsTo p := ⟨rfl, Or.inl ⟨rfl, rfl⟩⟩

/-- Nothing is received twice. -/
theorem ReadsTo.trans {p q r : Pipe} (hq : p.ReadsTo q) (hr : q.ReadsTo r) : p.ReadsTo r := by
  obtain ⟨hqheld, hq⟩ := hq
  obtain ⟨hrheld, hr⟩ := hr
  refine ⟨hrheld.trans hqheld, ?_⟩
  rcases hr with ⟨hrc, hre⟩ | ⟨hrc, hre⟩
  · rw [hrc, hre]
    exact hq
  · rw [hrc, hre]
    right
    rcases hq with ⟨hqc, hqe⟩ | ⟨hqc, hqe⟩
    · rw [hqc, hqe]
      exact ⟨rfl, rfl⟩
    · rw [hqc, hqe]
      simp [Channel.receiveAll, Bool.or_assoc]

/-- Restocking loses no text. -/
theorem contents_restock (p : Pipe) (waiting : Bool) :
    (p.restock waiting).1.contents = p.contents := by
  simp [contents, Channel.queued]

/-- Handing out a character of the buffer changes nothing else. -/
theorem ReadsTo.dropBuffered {p q : Pipe} (h : p.ReadsTo q) : p.ReadsTo q.dropBuffered := by
  have hheld : q.dropBuffered.held = q.held := by unfold Pipe.dropBuffered; split <;> rfl
  have hchannel : q.dropBuffered.channel = q.channel := by unfold Pipe.dropBuffered; split <;> rfl
  have hended : q.dropBuffered.reader.ended = q.reader.ended := by
    unfold Pipe.dropBuffered
    split <;> rfl
  unfold ReadsTo
  rw [hheld, hchannel, hended]
  exact h

/-- What is dropped was the first of the text. -/
theorem contents_dropBuffered (p : Pipe) {c : Char} {rest : List Char}
    (hp : p.reader.pushback = []) (hu : p.reader.unread = c :: rest) :
    p.contents = c :: p.dropBuffered.contents := by
  simp [dropBuffered, contents, hp, hu]

/-- **Refilling moves text and loses none.**  A refill of an empty buffer finds data exactly when
there is something to be read. -/
theorem refill_spec {p q : Pipe} {wait : Wait} {waiting : Bool} {answer : Refill}
    {hooks : List Hook} (h : p.refill wait waiting = (answer, q, hooks))
    (hp : p.reader.pushback = []) :
    p.ReadsTo q ∧ q.contents = p.contents ∧ q.reader.pushback = [] ∧
      ((answer = .data ∧ q.reader.unread ≠ []) ∨ (answer = .ended ∧ q.Exhausted true) ∨
        (answer = .late ∧ q.Exhausted false) ∨ (answer = .waits ∧ q.Exhausted false)) := by
  have hreads := readsTo_restock p waiting
  have hcontents := contents_restock p waiting
  have hback := pushback_restock p waiting
  rcases refill_cases h with ⟨rfl, hdata, rfl⟩ | ⟨hnil, rfl, hanswer⟩
  · exact ⟨hreads, hcontents, hback.trans hp, Or.inl ⟨rfl, hdata⟩⟩
  · have hmessages := messages_refill h
    have hempty : (p.restock waiting).1.contents = [] := by
      unfold contents
      rw [hback, hp, hnil]
      simp [Channel.queued]
    refine ⟨hreads, hcontents, hback.trans hp, Or.inr ?_⟩
    rcases hanswer with ⟨rfl, he⟩ | ⟨rfl, he, -⟩ | ⟨rfl, he, -⟩
    · exact Or.inl ⟨rfl, hempty, hmessages, he⟩
    · exact Or.inr (Or.inl ⟨rfl, hempty, hmessages, he⟩)
    · exact Or.inr (Or.inr ⟨rfl, hempty, hmessages, he⟩)

/-! ## A character -/

/-- **Everything a step of a next character can come to.**  It takes the first character of the
contents, or the pipe is exhausted. -/
theorem nextStep_cases {p q : Pipe} {waiting : Bool} {result : Step Bool Char} {hooks : List Hook}
    (h : p.nextStep waiting = (result, q, hooks)) :
    p.ReadsTo q ∧
      ((∃ c, result = .got c ∧ p.contents = c :: q.contents) ∨
        (result = .ended ∧ p.contents = [] ∧ q.Exhausted true) ∨
        (result = .onward true ∧ p.contents = [] ∧ q.Exhausted false)) := by
  have hself := ReadsTo.refl p
  unfold nextStep at h
  split at h
  · next c rest hp =>
    obtain ⟨rfl, rfl, -⟩ : Step.got c = result ∧ _ = q ∧ _ := by simpa only [Prod.mk.injEq] using h
    refine ⟨hself, Or.inl ⟨c, rfl, ?_⟩⟩
    simp [contents, hp]
  · next hp =>
    split at h
    · next c rest hu =>
      obtain ⟨rfl, rfl, -⟩ : Step.got c = result ∧ p.dropBuffered = q ∧ _ := by
        simpa only [Prod.mk.injEq] using h
      exact ⟨hself.dropBuffered, Or.inl ⟨c, rfl, contents_dropBuffered p hp hu⟩⟩
    · next hu =>
      rcases hr : p.refill p.reader.pacing.pollWait waiting with ⟨answer, r, heard⟩
      rw [hr] at h
      obtain ⟨hreads, hcontents, hback, hanswer⟩ := refill_spec hr hp
      rcases hanswer with ⟨rfl, hdata⟩ | ⟨rfl, hend⟩ | ⟨rfl, hend⟩ | ⟨rfl, hend⟩
      · obtain ⟨c, rest, hru⟩ := List.exists_cons_of_ne_nil hdata
        dsimp only at h
        rw [hru] at h
        obtain ⟨rfl, rfl, -⟩ : Step.got c = result ∧ r.dropBuffered = q ∧ _ := by
          simpa only [Prod.mk.injEq] using h
        refine ⟨hreads.dropBuffered, Or.inl ⟨c, rfl, ?_⟩⟩
        rw [← hcontents]
        exact contents_dropBuffered r hback hru
      · obtain ⟨rfl, rfl, -⟩ : Step.ended = result ∧ r = q ∧ _ := by
          simpa only [Prod.mk.injEq] using h
        exact ⟨hreads, Or.inr (Or.inl ⟨rfl, hcontents ▸ hend.contents, hend⟩)⟩
      · obtain ⟨rfl, rfl, -⟩ : Step.onward true = result ∧ r = q ∧ _ := by
          simpa only [Prod.mk.injEq] using h
        exact ⟨hreads, Or.inr (Or.inr ⟨rfl, hcontents ▸ hend.contents, hend⟩)⟩
      · obtain ⟨rfl, rfl, -⟩ : Step.onward true = result ∧ r = q ∧ _ := by
          simpa only [Prod.mk.injEq] using h
        exact ⟨hreads, Or.inr (Or.inr ⟨rfl, hcontents ▸ hend.contents, hend⟩)⟩

/-! ## A run -/

section AtHand

variable {max : Nat} {p : Pipe} {s : PartialRun max}

/-- Taking what is at hand is part of reading. -/
theorem readsTo_takeAtHand (p : Pipe) (s : PartialRun max) : p.ReadsTo (p.takeAtHand s).2 := by
  refine ⟨?_, Or.inl ⟨channel_takeAtHand p s, ?_⟩⟩
  all_goals
    unfold takeAtHand readAtHand readBuffer readPushback
    dsimp only
    split <;> rfl

/-- Reading what is at hand loses nothing. -/
theorem contents_takeAtHand (p : Pipe) (s : PartialRun max) :
    (p.takeAtHand s).1.text ++ (p.takeAtHand s).2.contents = s.text ++ p.contents := by
  obtain ⟨hrun, hrest⟩ := readAtHand_eq_takeRun p (max - s.text.length)
  have htext := takeRun_append (max - s.text.length) (p.reader.pushback ++ p.reader.unread)
  have hchannel := channel_takeAtHand p s
  unfold contents
  rw [hchannel]
  simp only [takeAtHand]
  rw [hrun, hrest, List.append_assoc, ← List.append_assoc (takeRun _ _).1, htext]

/-- A run that could be longer stands before a control, or nothing is left at hand. -/
theorem stops_takeAtHand (h : (p.takeAtHand s).1.text.length < max) :
    Stops ((p.takeAtHand s).2.reader.pushback ++ (p.takeAtHand s).2.reader.unread) := by
  obtain ⟨hrun, hrest⟩ := readAtHand_eq_takeRun p (max - s.text.length)
  simp only [takeAtHand, List.length_append] at h ⊢
  rw [hrest]
  apply stops_takeRun
  rw [← hrun]
  omega

/-- A run that ends with what is at hand is the run of all that can be read. -/
theorem takeRun_of_mayGoOn_eq_false (h : (p.takeAtHand s).2.mayGoOn (p.takeAtHand s).1 = false) :
    takeRun max (s.text ++ p.contents) =
        ((p.takeAtHand s).1.text, (p.takeAtHand s).2.contents) ∧
      (max = 0 ∨ s.text ++ p.contents ≠ []) := by
  rw [← contents_takeAtHand p s]
  have hstops := stops_takeAtHand (p := p) (s := s)
  generalize (p.takeAtHand s).2 = hand at h hstops
  generalize (p.takeAtHand s).1 = run at h hstops
  have hhand : run.text.length < max → hand.reader.pushback ++ hand.reader.unread ≠ [] := by
    intro hlt hnil
    have : hand.mayGoOn run = true := mayGoOn_eq_true.2 ⟨hlt, List.append_eq_nil_iff.1 hnil⟩
    simp [h] at this
  constructor
  · apply takeRun_append_of_stops run.plain run.length_le
    intro hlt
    have hs := hstops hlt
    obtain ⟨c, rest, hcons⟩ := List.exists_cons_of_ne_nil (hhand hlt)
    have hcontents : hand.contents = c :: (rest ++ hand.channel.queued) := by
      unfold contents
      rw [hcons]
      rfl
    rw [hcons] at hs
    rw [hcontents]
    exact hs
  · by_cases hlt : run.text.length < max
    · right
      intro hnil
      apply hhand hlt
      unfold contents at hnil
      exact (List.append_eq_nil_iff.1 (List.append_eq_nil_iff.1 hnil).2).1
    · by_cases hmax : max = 0
      · exact Or.inl hmax
      · right
        intro hnil
        rw [(List.append_eq_nil_iff.1 hnil).1, List.length_nil] at hlt
        omega

end AtHand

/-- **Everything a step of a run can come to.**  It ends with the run of what was taken and of the
contents, or the pipe is exhausted, or the reading goes on with the same text before it. -/
theorem readStep_cases {max : Nat} {p q : Pipe} {s : PartialRun max}
    {result : Step (PartialRun max) (List Char)} {hooks : List Hook}
    (h : p.readStep s = (result, q, hooks)) :
    p.ReadsTo q ∧
      ((∃ run, result = .got run ∧ takeRun max (s.text ++ p.contents) = (run, q.contents) ∧
          (max = 0 ∨ s.text ++ p.contents ≠ [])) ∨
        (result = .ended ∧ 0 < max ∧ s.text ++ p.contents = [] ∧ q.Exhausted true) ∨
        (∃ t, result = .onward t ∧ 0 < max ∧ t.text ++ q.contents = s.text ++ p.contents ∧
          ((t.waiting = false ∧ q.contents ≠ []) ∨ (t.waiting = true ∧ q.Exhausted false)))) := by
  unfold readStep at h
  dsimp only at h
  have hreads := readsTo_takeAtHand p s
  split at h
  · next hm =>
    have hcontents := contents_takeAtHand p s
    generalize (p.takeAtHand s).2 = hand at h hm hreads hcontents
    generalize (p.takeAtHand s).1 = run at h hm hcontents
    obtain ⟨hlt, hback, -⟩ := mayGoOn_eq_true.1 hm
    have hmax : 0 < max := by omega
    rcases hr : hand.refill (hand.runWait run.text) s.waiting with ⟨answer, r, heard⟩
    rw [hr] at h
    obtain ⟨hasked, hrefill, -, hanswer⟩ := refill_spec hr hback
    obtain ⟨hresult, rfl, -⟩ : afterRefill run answer = result ∧ r = q ∧ _ := by
      simpa only [Prod.mk.injEq] using h
    refine ⟨hreads.trans hasked, ?_⟩
    rw [← hcontents, ← hrefill]
    -- a run that no more is coming for is all that could be read
    have hwhole : r.contents = [] →
        takeRun max (run.text ++ r.contents) = (run.text, r.contents) := by
      intro hnil
      apply takeRun_append_of_stops run.plain run.length_le
      simp [hnil, Stops]
    rcases hanswer with ⟨rfl, hdata⟩ | ⟨rfl, hend⟩ | ⟨rfl, hend⟩ | ⟨rfl, hend⟩
    · refine Or.inr (Or.inr ⟨_, hresult.symm, hmax, rfl, Or.inl ⟨rfl, ?_⟩⟩)
      unfold contents
      simp [hdata]
    · by_cases hrun : run.text = []
      · refine Or.inr (Or.inl ⟨?_, hmax, ?_, hend⟩)
        · simpa [afterRefill, hrun] using hresult.symm
        · rw [hrun, hend.contents, List.append_nil]
      · refine Or.inl ⟨run.text, ?_, hwhole hend.contents, Or.inr (by simp [hrun])⟩
        simpa [afterRefill, hrun] using hresult.symm
    · by_cases hrun : run.text = []
      · refine Or.inr (Or.inr ⟨{ run with waiting := true }, ?_, hmax, rfl, Or.inr ⟨rfl, hend⟩⟩)
        simpa [afterRefill, hrun] using hresult.symm
      · refine Or.inl ⟨run.text, ?_, hwhole hend.contents, Or.inr (by simp [hrun])⟩
        simpa [afterRefill, hrun] using hresult.symm
    · exact Or.inr (Or.inr ⟨_, hresult.symm, hmax, rfl, Or.inr ⟨rfl, hend⟩⟩)
  · next hm =>
    obtain ⟨rfl, rfl, -⟩ : _ = result ∧ _ = q ∧ _ := by simpa only [Prod.mk.injEq] using h
    obtain ⟨hrun, hne⟩ := takeRun_of_mayGoOn_eq_false (p := p) (by simpa using hm)
    exact ⟨hreads, Or.inl ⟨_, rfl, hrun, hne⟩⟩

/-- **A run that is read without the writer** is the run of what was taken and of the contents. 
Where there is none, the pipe is exhausted. -/
theorem readOn_cases {max : Nat} {p q : Pipe} {s : PartialRun max}
    {result : Received (List Char)} {hooks : List Hook} (h : p.readOn s = (result, q, hooks)) :
    p.ReadsTo q ∧
      ((∃ run, result = .got run ∧ takeRun max (s.text ++ p.contents) = (run, q.contents) ∧
          (max = 0 ∨ s.text ++ p.contents ≠ [])) ∨
        (result = .ended ∧ 0 < max ∧ s.text ++ p.contents = [] ∧ q.Exhausted true) ∨
        (result = .parked ∧ 0 < max ∧ s.text ++ p.contents = [] ∧ q.Exhausted false)) := by
  fun_induction readOn p s generalizing result q hooks with
  | case1 p s run r heard hstep =>
      obtain ⟨rfl, rfl, -⟩ : Received.got run = result ∧ r = q ∧ _ := by
        simpa only [Prod.mk.injEq] using h
      obtain ⟨hreads, hcases⟩ := readStep_cases hstep
      rcases hcases with ⟨run', hgot, hrun⟩ | ⟨hended, -⟩ | ⟨t, honward, -⟩
      · obtain rfl : run = run' := Step.got.inj hgot
        exact ⟨hreads, Or.inl ⟨run, rfl, hrun⟩⟩
      · simp at hended
      · simp at honward
  | case2 p s r heard hstep =>
      obtain ⟨rfl, rfl, -⟩ : Received.ended = result ∧ r = q ∧ _ := by
        simpa only [Prod.mk.injEq] using h
      obtain ⟨hreads, hcases⟩ := readStep_cases hstep
      rcases hcases with ⟨run', hgot, -⟩ | ⟨-, hend⟩ | ⟨t, honward, -⟩
      · simp at hgot
      · exact ⟨hreads, Or.inr (Or.inl ⟨rfl, hend⟩)⟩
      · simp at honward
  | case3 p s t r heard hstep hneeds =>
      obtain ⟨rfl, rfl, -⟩ : Received.parked = result ∧ r = q ∧ _ := by
        simpa only [Prod.mk.injEq] using h
      obtain ⟨hreads, hcases⟩ := readStep_cases hstep
      rcases hcases with ⟨run', hgot, -⟩ | ⟨hended, -⟩ | ⟨t', honward, hmax, htext, hwaits⟩
      · simp at hgot
      · simp at hended
      · obtain rfl : t = t' := Step.onward.inj honward
        obtain ⟨hwaiting, hnil⟩ : t.waiting = true ∧ t.text = [] := by
          simpa [PartialRun.needsWriter] using hneeds
        have hend : r.Exhausted false := by
          rcases hwaits with ⟨hw, -⟩ | ⟨-, hend⟩
          · simp [hwaiting] at hw
          · exact hend
        refine ⟨hreads, Or.inr (Or.inr ⟨rfl, hmax, ?_, hend⟩)⟩
        rw [← htext, hnil, hend.contents, List.append_nil]
  | case4 p s t r heard hstep hneeds ih =>
      obtain ⟨hreads, hcases⟩ := readStep_cases hstep
      rcases hcases with ⟨run', hgot, -⟩ | ⟨hended, -⟩ | ⟨t', honward, hmax, htext, -⟩
      · simp at hgot
      · simp at hended
      · obtain rfl : t = t' := Step.onward.inj honward
        obtain ⟨hresult, hq, -⟩ :
            (r.readOn t).1 = result ∧ (r.readOn t).2.1 = q ∧ _ := by
          simpa only [heardFirst, Prod.mk.injEq] using h
        have hrest : r.readOn t = (result, q, (r.readOn t).2.2) := by
          rw [← hresult, ← hq]
        obtain ⟨hmore, hmoreCases⟩ := ih hrest
        rw [htext] at hmoreCases
        exact ⟨hreads.trans hmore, hmoreCases⟩

end VideoTerminal.Pipe
