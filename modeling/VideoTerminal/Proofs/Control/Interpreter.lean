import VideoTerminal.Control.Interpreter
import VideoTerminal.Proofs.Terminal.Letters

/-!
# Interpreting is reading and carrying out

What the parser reads does not depend on the terminal.  So a text can be read first (`Parser.read`),
and what it asks for carried out then (`Interpreter.feedText_eq`).  What an action comes to, if
nothing fails, is said once, by `Terminal.perform_cases`.

A character asks for one thing at most.  Only a character that ends a title and begins something
else asks for two, the title first (`Parser.eq_setTitle_of_mem_dropLast_step`).
-/

namespace VideoTerminal

namespace Parser

/-- Reads a text: what the parser has come to, and what has been asked for on the way. -/
def read (p : Parser) : List Char → Parser × List Action
  | [] => (p, [])
  | c :: rest =>
    let (q, actions) := p.step c
    let (r, more) := q.read rest
    (r, actions ++ more)

/-- Reading takes the first character, and then the rest. -/
theorem read_cons (p : Parser) (c : Char) (rest : List Char) :
    p.read (c :: rest) =
      (((p.step c).1.read rest).1, (p.step c).2 ++ ((p.step c).1.read rest).2) := rfl

/-- What is read in two parts is read at once. -/
theorem read_append (p : Parser) (front back : List Char) :
    p.read (front ++ back) =
      (((p.read front).1.read back).1, (p.read front).2 ++ ((p.read front).1.read back).2) := by
  induction front generalizing p with
  | nil => rfl
  | cons c front ih =>
      rw [List.cons_append, read_cons, ih, read_cons]
      simp only [List.append_assoc]

/-- A text that asks for nothing only moves the parser on. -/
theorem read_append_of_silent {p q : Parser} {front : List Char} (h : p.read front = (q, []))
    (back : List Char) : p.read (front ++ back) = q.read back := by
  rw [read_append, h]
  rfl

/-- A character that asks for nothing only changes the parser. -/
theorem read_cons_of_silent {p q : Parser} {c : Char} (h : p.step c = (q, []))
    (rest : List Char) : p.read (c :: rest) = q.read rest := by
  simp [read, h]

/-- Reading one character is a step. -/
theorem read_singleton (p : Parser) (c : Char) : p.read [c] = p.step c := by
  simp [read]

/-- Between sequences a character that is not a control prints. -/
theorem step_plain {p : Parser} (h : p.state = .ground) {c : Char}
    (hplain : Text.isControl7 c = false) : p.step c = (p, [.print c]) := by
  obtain ⟨hc0, hdel⟩ : Text.isC0 c = false ∧ c ≠ '\x7f' := by
    simpa [Text.isControl7] using hplain
  simp [step, h, hc0, hdel]

end Parser

namespace Terminal

/-! ## Carrying out -/

/-- A computation that goes through has gone through in its first part. -/
theorem exists_of_bind_eq_ok {α β : Type} {first : Except Fault α} {rest : α → Except Fault β}
    {b : β} (h : first >>= rest = .ok b) : ∃ a, first = .ok a ∧ rest a = .ok b := by
  cases first with
  | error fault => cases h
  | ok a => exact ⟨a, rfl, h⟩

/-- A computation whose result is known has gone through. -/
theorem eq_ok_of_toOption {α : Type} {computed : Except Fault α} {a : α}
    (h : computed.toOption = some a) : computed = .ok a := by
  cases computed with
  | error fault => cases h
  | ok b => exact congrArg Except.ok (Option.some.inj h)

section CarryingOut

variable {t t' : Terminal} {replies : List Reply}

/-- What carrying out an action comes to.  Five actions may fail, and one of these only reports. -/
theorem perform_cases {action : Action} (h : t.perform action = .ok (t', replies)) :
    (∃ c, action = .print c ∧ t.putChar c = .ok t') ∨
      (action = .horizontalTab ∧ t.horizontalTab = .ok t') ∨
      (∃ n, action = .insertLines n ∧ t.insertLines n = .ok t') ∨
      (∃ n, action = .deleteLines n ∧ t.deleteLines n = .ok t') ∨
      t' = t.performSimple action := by
  cases action with
  | print c =>
      obtain ⟨printed, hprint, hok⟩ := exists_of_bind_eq_ok (t.perform_print c ▸ h)
      obtain rfl := congrArg Prod.fst (Except.ok.inj hok)
      exact .inl ⟨c, rfl, hprint⟩
  | horizontalTab =>
      obtain ⟨moved, hmove, hok⟩ := exists_of_bind_eq_ok (t.perform_horizontalTab ▸ h)
      obtain rfl := congrArg Prod.fst (Except.ok.inj hok)
      exact .inr (.inl ⟨rfl, hmove⟩)
  | insertLines n =>
      obtain ⟨opened, hopen, hok⟩ := exists_of_bind_eq_ok (t.perform_insertLines n ▸ h)
      obtain rfl := congrArg Prod.fst (Except.ok.inj hok)
      exact .inr (.inr (.inl ⟨n, rfl, hopen⟩))
  | deleteLines n =>
      obtain ⟨closed, hclose, hok⟩ := exists_of_bind_eq_ok (t.perform_deleteLines n ▸ h)
      obtain rfl := congrArg Prod.fst (Except.ok.inj hok)
      exact .inr (.inr (.inr (.inl ⟨n, rfl, hclose⟩)))
  | reportCursor =>
      obtain ⟨reply, -, hok⟩ := exists_of_bind_eq_ok (t.perform_reportCursor ▸ h)
      exact .inr (.inr (.inr (.inr (congrArg Prod.fst (Except.ok.inj hok)).symm)))
  | _ => exact .inr (.inr (.inr (.inr (congrArg Prod.fst (Except.ok.inj h)).symm)))

/-- Actions that go through do so one after the other. -/
theorem exists_of_performAll_cons {action : Action} {rest : List Action}
    (h : t.performAll (action :: rest) = .ok (t', replies)) :
    ∃ middle first more, t.perform action = .ok (middle, first) ∧
      middle.performAll rest = .ok (t', more) := by
  obtain ⟨⟨middle, first⟩, hfirst, hmore⟩ := exists_of_bind_eq_ok h
  obtain ⟨⟨last, more⟩, hrest, hend⟩ := exists_of_bind_eq_ok hmore
  obtain rfl := congrArg Prod.fst (Except.ok.inj hend)
  exact ⟨middle, first, more, hfirst, hrest⟩

end CarryingOut

/-- Carrying out two lists of actions is carrying out the first and then the second. -/
theorem performAll_append (t : Terminal) (front back : List Action) :
    t.performAll (front ++ back) = (t.performAll front).bind fun out =>
      (out.1.performAll back).map fun more => (more.1, out.2 ++ more.2) := by
  induction front generalizing t with
  | nil =>
      change _ = Except.map _ _
      simp only [List.nil_append]
      cases t.performAll back with
      | error fault => rfl
      | ok out => rfl
  | cons action front ih =>
      rw [List.cons_append, performAll, performAll]
      cases t.perform action with
      | error fault => rfl
      | ok first =>
          change (first.1.performAll (front ++ back) >>= fun more =>
              pure (more.1, first.2 ++ more.2)) =
            Except.bind (first.1.performAll front >>= fun more =>
              pure (more.1, first.2 ++ more.2)) _
          rw [ih]
          cases first.1.performAll front with
          | error fault => rfl
          | ok second =>
              change (Except.map _ (second.1.performAll back) >>= _) =
                Except.map _ (second.1.performAll back)
              cases second.1.performAll back with
              | error fault => rfl
              | ok third => simp [Except.map, bind, Except.bind, pure, Except.pure]

end Terminal

namespace Interpreter

/-- One more character is read, and what it asks for is carried out. -/
theorem feedNext_eq (i : Interpreter) (sofar : List Reply) (c : Char) :
    feedNext (i, sofar) c = (i.terminal.performAll (i.parser.step c).2).map fun out =>
      (⟨(i.parser.step c).1, out.1⟩, sofar ++ out.2) := by
  unfold feedNext feed
  dsimp only
  cases i.terminal.performAll (i.parser.step c).2 with
  | error fault => rfl
  | ok out => rfl

/-- The parser reads, and the terminal carries out what it asks for. -/
theorem foldlM_feedNext_eq (i : Interpreter) (sofar : List Reply) (text : List Char) :
    text.foldlM feedNext (i, sofar) =
      (i.terminal.performAll (i.parser.read text).2).map fun out =>
        (⟨(i.parser.read text).1, out.1⟩, sofar ++ out.2) := by
  induction text generalizing i sofar with
  | nil => simp [Parser.read, Terminal.performAll, Except.map, pure, Except.pure]
  | cons c text ih =>
      rw [List.foldlM_cons, feedNext_eq, Parser.read_cons, Terminal.performAll_append]
      cases i.terminal.performAll (i.parser.step c).2 with
      | error fault => rfl
      | ok out =>
          change text.foldlM feedNext (⟨(i.parser.step c).1, out.1⟩, sofar ++ out.2) =
            Except.map _ (Except.map _ (out.1.performAll ((i.parser.step c).1.read text).2))
          rw [ih]
          cases out.1.performAll ((i.parser.step c).1.read text).2 with
          | error fault => rfl
          | ok more => simp [Except.map]

/-- Between sequences a character that is not a control prints, and the parser stays as it is. -/
theorem feed_plain {i : Interpreter} {c : Char} (hground : i.parser.state = .ground)
    (hplain : Text.isControl7 c = false) :
    i.feed c = (i.terminal.putChar c).map fun t => ({ i with terminal := t }, []) := by
  unfold feed
  rw [Parser.step_plain hground hplain]
  simp only [Terminal.performAll, Terminal.perform_print]
  cases i.terminal.putChar c with
  | error fault => rfl
  | ok t => rfl

/-- **A run prints as its characters do.** -/
theorem foldlM_feedNext_plain {i : Interpreter} {text : List Char}
    (hground : i.parser.state = .ground) (hplain : ∀ c ∈ text, Text.isControl7 c = false)
    (replies : List Reply) :
    text.foldlM feedNext (i, replies) =
      (i.terminal.putText text).map fun t => ({ i with terminal := t }, replies) := by
  rw [Terminal.putText_eq]
  induction text generalizing i with
  | nil => rfl
  | cons c text ih =>
      have hc : Text.isControl7 c = false := hplain c (by simp)
      have hrest : ∀ d ∈ text, Text.isControl7 d = false := fun d hd => hplain d (by simp [hd])
      rw [List.foldlM_cons, feedNext, feed_plain hground hc, List.foldlM_cons]
      cases i.terminal.putChar c with
      | error fault => rfl
      | ok t =>
        have hnext := @ih { i with terminal := t } hground hrest
        change text.foldlM feedNext ({ i with terminal := t }, replies ++ []) = _
        rw [List.append_nil]
        exact hnext

/-- **Interpreting a text** is interpreting its characters one after the other. -/
theorem feedText_eq_foldlM (i : Interpreter) (text : List Char) :
    i.feedText text = text.foldlM feedNext (i, []) := by
  unfold feedText
  split
  · next hground =>
    have hplain : ∀ c ∈ text.takeWhile (fun c => !Text.isControl7 c), Text.isControl7 c = false :=
      fun c hc => by simpa using List.all_eq_true.mp List.all_takeWhile c hc
    conv =>
      rhs
      rw [← List.takeWhile_append_dropWhile (p := fun c => !Text.isControl7 c) (l := text),
        List.foldlM_append, foldlM_feedNext_plain hground hplain]
    cases i.terminal.putText (text.takeWhile fun c => !Text.isControl7 c) <;> rfl
  · rfl

/-- A text is read, and what it asks for is carried out then. -/
theorem feedText_eq (i : Interpreter) (text : List Char) :
    i.feedText text = (i.terminal.performAll (i.parser.read text).2).map fun out =>
      (⟨(i.parser.read text).1, out.1⟩, out.2) :=
  (i.feedText_eq_foldlM text).trans (i.foldlM_feedNext_eq [] text)

/-- A text that asks for nothing leaves the terminal as it is. -/
theorem feedText_of_silent {i : Interpreter} {text : List Char} {q : Parser}
    (h : i.parser.read text = (q, [])) : i.feedText text = .ok (⟨q, i.terminal⟩, []) := by
  rw [feedText_eq, h]
  rfl

/-- Replies given before stay in front. -/
theorem foldlM_feedNext_replies (i : Interpreter) (replies : List Reply) (text : List Char) :
    text.foldlM feedNext (i, replies) =
      (i.feedText text).map fun out => (out.1, replies ++ out.2) := by
  rw [foldlM_feedNext_eq, feedText_eq]
  cases i.terminal.performAll (i.parser.read text).2 with
  | error fault => rfl
  | ok out => rfl

end Interpreter

/-! ## What a character may ask for -/

/-- A command to the operating system sets the title at most. -/
theorem Action.eq_setTitle_of_ofCommand? {payload : String} {action : Action}
    (h : Action.ofCommand? payload = some action) : ∃ title, action = .setTitle title := by
  unfold Action.ofCommand? at h
  dsimp only at h
  split at h
  · split at h
    · exact ⟨_, (Option.some.inj h).symm⟩
    · cases h
  · cases h

namespace Parser

/-- A control asks for one thing at most. -/
theorem length_stepControl_le (p : Parser) (c : Char) : (p.stepControl c).2.length ≤ 1 := by
  unfold stepControl
  split <;> simp

/-- The character behind an ESC asks for one thing at most. -/
theorem length_stepEscape_le (p : Parser) (c : Char) : (p.stepEscape c).2.length ≤ 1 := by
  unfold stepEscape
  repeat' split
  all_goals simp

/-- A control sequence asks for one thing at most. -/
theorem length_dispatch_le (p : Parser) (c : Char) : (p.dispatch c).2.length ≤ 1 :=
  Option.length_toList_le

theorem length_stepParam_le (p : Parser) (c : Char) : (p.stepParam c).2.length ≤ 1 := by
  have hdispatch := p.endNumber.length_dispatch_le c
  unfold stepParam
  repeat' split
  all_goals first | exact hdispatch | exact Nat.zero_le 1

theorem length_stepEntry_le (p : Parser) (c : Char) : (p.stepEntry c).2.length ≤ 1 := by
  have hdispatch := p.length_dispatch_le c
  have hparam := length_stepParam_le { p with state := .sequenceParam } c
  unfold stepEntry
  repeat' split
  all_goals first | exact hdispatch | exact hparam | exact Nat.zero_le 1

theorem length_stepIntermediate_le (p : Parser) (c : Char) :
    (p.stepIntermediate c).2.length ≤ 1 := by
  have hdispatch := p.length_dispatch_le c
  unfold stepIntermediate
  repeat' split
  all_goals first | exact hdispatch | exact Nat.zero_le 1

/-- A control string asks for nothing but a title. -/
theorem eq_setTitle_of_mem_stringActions {p : Parser} {action : Action}
    (h : action ∈ p.stringActions) : ∃ title, action = .setTitle title := by
  unfold stringActions at h
  split at h
  · exact Action.eq_setTitle_of_ofCommand? (Option.mem_toList.mp h)
  · cases h

/-- A control string asks for one title at most. -/
theorem length_stringActions_le (p : Parser) : p.stringActions.length ≤ 1 := by
  unfold stringActions
  split
  · exact Option.length_toList_le
  · exact Nat.zero_le 1

/-- A character asks for one thing at most, except that it may end a title first. -/
theorem eq_setTitle_of_mem_dropLast_step {p : Parser} {c : Char} {action : Action}
    (h : action ∈ (p.step c).2.dropLast) : ∃ title, action = .setTitle title := by
  have hnone : ∀ actions : List Action, actions.length ≤ 1 → action ∉ actions.dropLast := by
    intro actions hlen hmem
    have hpos := List.length_pos_of_mem hmem
    rw [List.length_dropLast] at hpos
    omega
  unfold step at h
  split at h
  · unfold stepString at h
    have hlen := p.length_stringActions_le
    repeat' split at h
    all_goals exact absurd h (hnone _ (by first | exact hlen | exact Nat.zero_le 1))
  · unfold stepStringEscape at h
    split at h
    · exact absurd h (hnone _ p.length_stringActions_le)
    · -- What the string asked for stands before what the next sequence does.
      have hlen := p.enterEscape.length_stepEscape_le c
      change action ∈ (p.stringActions ++ (p.enterEscape.stepEscape c).2).dropLast at h
      refine eq_setTitle_of_mem_stringActions (p := p) ?_
      cases hnext : (p.enterEscape.stepEscape c).2 with
      | nil =>
          rw [hnext, List.append_nil] at h
          exact List.dropLast_subset _ h
      | cons next rest =>
          rw [hnext, List.length_cons] at hlen
          obtain rfl : rest = [] := List.eq_nil_of_length_eq_zero (by omega)
          rw [hnext, List.dropLast_concat] at h
          exact h
  · split at h
    · exact absurd h (hnone _ (p.length_stepControl_le c))
    · split at h
      · exact absurd h (hnone _ (p.length_stepEscape_le c))
      · refine absurd h (hnone _ ?_)
        unfold stepEscapeIntermediate
        split <;> exact Nat.zero_le 1
      · exact absurd h (hnone _ (p.length_stepEntry_le c))
      · exact absurd h (hnone _ (p.length_stepParam_le c))
      · exact absurd h (hnone _ (p.length_stepIntermediate_le c))
      · refine absurd h (hnone _ ?_)
        dsimp only
        split <;> simp

end Parser

end VideoTerminal
