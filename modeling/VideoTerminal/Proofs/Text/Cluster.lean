import Mathlib.Data.List.Induction
import VideoTerminal.Text.Cluster

/-!
# Texts that grow

Whether a boundary lies before a character depends on the text before it only, and from a boundary
on a text is cut as if it began there.  So when text is added, all clusters but the last stay, and
the rest is cut as the last one with what has been added (`exists_clusters_append`).  Behind a
control nothing joins but a line feed to a carriage return, so that there the new text may as well
be cut by itself (`isBoundary_of_isControl7`).
-/

namespace VideoTerminal.Text

/-- A boundary between two parts of a text: some of its clusters make up the first part. -/
def IsBoundary (front back : List Char) : Prop :=
  ∃ left right, clusters (front ++ back) = left ++ right ∧ left.flatten = front

/-- The end of a text is a boundary. -/
theorem isBoundary_end (text : List Char) : IsBoundary text [] :=
  ⟨clusters text, [], by simp, flatten_clusters text⟩

namespace Clustering

/-- The open cluster has been scanned like a text of its own. -/
def Restarts (k : Clustering) : Prop :=
  ∃ c rest, k.current.reverse = c :: rest ∧ ofText c rest = ⟨[], k.current, k.scan⟩

/-- What is complete has no part in what follows. -/
theorem foldl_push_append (complete base : List (List Char)) (current : List Char) (s : Scan)
    (rest : List Char) :
    rest.foldl push ⟨complete ++ base, current, s⟩ =
      { rest.foldl push ⟨complete, current, s⟩ with
        complete := (rest.foldl push ⟨complete, current, s⟩).complete ++ base } := by
  induction rest generalizing complete current s with
  | nil => rfl
  | cons c rest ih =>
      rw [List.foldl_cons, List.foldl_cons]
      by_cases hjoins : s.joins c = true
      · simp only [push, hjoins, if_true]
        exact ih complete (c :: current) (s.extend c)
      · simp only [push, hjoins, if_false, Bool.false_eq_true]
        exact ih (current.reverse :: complete) [c] (Scan.start c)

/-- Neither has it a part in the cluster that is open. -/
theorem current_foldl_push (complete complete' : List (List Char)) (current : List Char) (s : Scan)
    (rest : List Char) :
    (rest.foldl push ⟨complete, current, s⟩).current =
      (rest.foldl push ⟨complete', current, s⟩).current := by
  have h := foldl_push_append [] complete current s rest
  have h' := foldl_push_append [] complete' current s rest
  rw [List.nil_append] at h h'
  rw [h, h']

/-- With one scalar more, the open cluster still reads like a text of its own. -/
theorem Restarts.push {k : Clustering} (h : k.Restarts) (c : Char) : (k.push c).Restarts := by
  obtain ⟨first, rest, hcurrent, htext⟩ := h
  unfold Clustering.push
  by_cases hjoins : k.scan.joins c = true
  · rw [if_pos hjoins]
    refine ⟨first, rest ++ [c], by simp [hcurrent], ?_⟩
    rw [ofText, List.foldl_append, ← ofText, htext]
    simp [Clustering.push, hjoins]
  · rw [if_neg hjoins]
    exact ⟨c, [], rfl, rfl⟩

/-- The open cluster of a text reads like a text of its own. -/
theorem restarts_ofText (c : Char) (rest : List Char) : (ofText c rest).Restarts := by
  unfold ofText
  generalize hk : start c = k
  have h : k.Restarts := hk ▸ ⟨c, [], rfl, rfl⟩
  clear hk
  induction rest generalizing k with
  | nil => exact h
  | cons d rest ih => exact ih (k.push d) (h.push d)

/-- A longer text goes on where the shorter one ended. -/
theorem ofText_append (c : Char) (rest more : List Char) :
    ofText c (rest ++ more) = more.foldl push (ofText c rest) :=
  List.foldl_append

/-- The scanner remembers the class of the last character. -/
theorem last_scan_ofText {c d : Char} {rest : List Char} (h : (c :: rest).getLast? = some d) :
    (ofText c rest).scan.last = BreakClass.of d := by
  induction rest using List.reverseRecOn with
  | nil =>
      obtain rfl : c = d := by simpa using h
      rfl
  | append_singleton rest e =>
      obtain rfl : e = d := by
        rw [← List.cons_append, List.getLast?_concat] at h
        exact Option.some.inj h
      rw [ofText_append, List.foldl_cons, List.foldl_nil, Clustering.push]
      split <;> rfl

/-- Where a character does not join, the text is cut as two. -/
theorem clusters_append_cons (c : Char) (rest : List Char) {d : Char} (more : List Char)
    (hjoins : (ofText c rest).scan.joins d = false) :
    clusters (c :: rest ++ d :: more) = clusters (c :: rest) ++ clusters (d :: more) := by
  generalize hk : ofText c rest = k at hjoins
  have hpush : k.push d = ⟨[] ++ k.current.reverse :: k.complete, [d], Scan.start d⟩ := by
    simp [Clustering.push, hjoins]
  simp only [clusters, List.cons_append]
  rw [ofText_append, hk, List.foldl_cons, hpush, foldl_push_append]
  simp [toList, ofText, start]

end Clustering

/-- **The last cluster alone is open.**  Whatever is added to a text, its other clusters stay, and
the rest is cut like the last one with what is added. -/
theorem exists_clusters_append {text : List Char} (h : text ≠ []) :
    ∃ front, front.flatten = (splitLastCluster text).1 ∧
      clusters text = front ++ [(splitLastCluster text).2] ∧
      ∀ more, clusters (text ++ more) = front ++ clusters ((splitLastCluster text).2 ++ more) := by
  obtain ⟨c, rest, rfl⟩ := List.exists_cons_of_ne_nil h
  obtain ⟨first, inner, hcurrent, hrestart⟩ := Clustering.restarts_ofText c rest
  refine ⟨(Clustering.ofText c rest).complete.reverse, rfl, ?_, ?_⟩
  · simp [clusters, splitLastCluster, Clustering.toList]
  · intro more
    simp only [splitLastCluster, hcurrent, clusters, List.cons_append]
    rw [Clustering.ofText_append, Clustering.ofText_append, hrestart]
    generalize Clustering.ofText c rest = k
    have hsplit := Clustering.foldl_push_append [] k.complete k.current k.scan more
    rw [List.nil_append] at hsplit
    change (List.foldl Clustering.push ⟨k.complete, k.current, k.scan⟩ more).toList = _
    rw [hsplit]
    simp [Clustering.toList]

/-- A cluster is not empty. -/
theorem splitLastCluster_snd_ne_nil {text : List Char} (h : text ≠ []) :
    (splitLastCluster text).2 ≠ [] := by
  obtain ⟨c, rest, rfl⟩ := List.exists_cons_of_ne_nil h
  obtain ⟨first, inner, hcurrent, -⟩ := Clustering.restarts_ofText c rest
  simp [splitLastCluster, hcurrent]

/-- The last cluster is the one that is split off. -/
theorem getLast?_clusters {text : List Char} (h : text ≠ []) :
    (clusters text).getLast? = some (splitLastCluster text).2 := by
  obtain ⟨front, -, hclusters, -⟩ := exists_clusters_append h
  rw [hclusters, List.getLast?_concat]

/-- What is added to a text changes the last cluster as if the others were not there. -/
theorem splitLastCluster_snd_append {text : List Char} (h : text ≠ []) (more : List Char) :
    (splitLastCluster (text ++ more)).2 =
      (splitLastCluster ((splitLastCluster text).2 ++ more)).2 := by
  obtain ⟨front, -, -, hclusters⟩ := exists_clusters_append h
  have hne : (splitLastCluster text).2 ++ more ≠ [] := by simp [splitLastCluster_snd_ne_nil h]
  have hlast := getLast?_clusters hne
  have hboth : (clusters (text ++ more)).getLast? = some (splitLastCluster (text ++ more)).2 :=
    getLast?_clusters (by simp [h])
  rw [hclusters, List.getLast?_append, hlast] at hboth
  exact (Option.some.inj hboth).symm

/-- A control ends its cluster; only a carriage return does not quite. -/
theorem BreakClass.of_isControl7 {c : Char} (h : isControl7 c = true) :
    (c = '\r' ∧ of c = .carriageReturn) ∨ of c = .lineFeed ∨ of c = .control := by
  by_cases hreturn : c = '\r'
  · exact .inl ⟨hreturn, by rw [hreturn]; rfl⟩
  · by_cases hfeed : c = '\n'
    · exact .inr (.inl (by rw [hfeed]; rfl))
    · refine .inr (.inr ?_)
      simp only [isControl7, Bool.or_eq_true, beq_iff_eq] at h
      rcases h with h | rfl
      · simp only [of, beq_iff_eq, hreturn, hfeed, h, if_true, if_false]
      · rfl

/-- The line feed is a class of its own. -/
theorem BreakClass.of_ne_lineFeed {c : Char} (h : c ≠ '\n') : of c ≠ .lineFeed := by
  simp only [of, beq_iff_eq, h, if_false]
  repeat' refine iteInduction (motive := fun k : BreakClass => k ≠ .lineFeed) (fun _ => ?_) (fun _ => ?_)
  all_goals decide

/-- Nothing joins a control but a line feed a carriage return. -/
theorem Scan.joins_of_isControl7 {s : Scan} {c d : Char} (hlast : s.last = BreakClass.of c)
    (hc : isControl7 c = true) (h : s.joins d = true) : c = '\r' ∧ d = '\n' := by
  unfold joins at h
  rw [hlast] at h
  rcases BreakClass.of_isControl7 hc with ⟨hreturn, hclass⟩ | hclass | hclass
  · refine ⟨hreturn, ?_⟩
    by_contra hfeed
    have hne := BreakClass.of_ne_lineFeed hfeed
    rw [hclass] at h
    cases hd : BreakClass.of d <;> simp_all
  · rw [hclass] at h
    cases hd : BreakClass.of d <;> simp_all
  · rw [hclass] at h
    cases hd : BreakClass.of d <;> simp_all

/-- Behind a control a text is cut as if it began there, unless it goes on with the line feed of a
carriage return. -/
theorem isBoundary_of_isControl7 {text more : List Char} {c d : Char} (hlast : text.getLast? = some c)
    (hc : isControl7 c = true) (h : ¬ (c = '\r' ∧ d = '\n')) : IsBoundary text (d :: more) := by
  cases text with
  | nil => cases hlast
  | cons first rest =>
      have hjoins : (Clustering.ofText first rest).scan.joins d = false :=
        Bool.eq_false_iff.mpr fun hjoins =>
          h (Scan.joins_of_isControl7 (Clustering.last_scan_ofText hlast) hc hjoins)
      exact ⟨_, _, Clustering.clusters_append_cons first rest more hjoins, flatten_clusters _⟩

/-- Behind a control the last cluster is that of the new text, unless this ends in a control as
well. -/
theorem splitLastCluster_snd_append_of_isControl7 {text more : List Char} {c : Char}
    (hlast : text.getLast? = some c) (hc : isControl7 c = true) (hne : more ≠ [])
    (hmore : more.getLast?.any isControl7 = false) :
    (splitLastCluster (text ++ more)).2 = (splitLastCluster more).2 := by
  obtain ⟨d, more, rfl⟩ := List.exists_cons_of_ne_nil hne
  cases text with
  | nil => cases hlast
  | cons first rest =>
      have hscan := Clustering.last_scan_ofText hlast
      simp only [splitLastCluster, List.cons_append, List.reverse_inj]
      rw [Clustering.ofText_append, List.foldl_cons]
      generalize Clustering.ofText first rest = k at hscan
      by_cases hjoins : k.scan.joins d = true
      · obtain ⟨rfl, rfl⟩ := Scan.joins_of_isControl7 hscan hc hjoins
        -- The line feed joins on one side only; whatever follows it opens a cluster on both.
        cases more with
        | nil => simp [isControl7, isC0] at hmore
        | cons e more =>
            have hnone : ∀ s : Scan, s.last = BreakClass.of '\n' → s.joins e = false := by
              intro s hs
              refine Bool.eq_false_iff.mpr fun hjoins => ?_
              have hreturn := Scan.joins_of_isControl7 hs (by decide) hjoins
              exact absurd hreturn.1 (by decide)
            have hjoined := hnone (k.scan.extend '\n') rfl
            have hstart := hnone (Scan.start '\n') rfl
            simp only [Clustering.ofText, Clustering.start, List.foldl_cons, Clustering.push,
              hjoins, hjoined, hstart, if_true, if_false, Bool.false_eq_true]
            exact Clustering.current_foldl_push ..
      · rw [Clustering.push, if_neg hjoins]
        exact Clustering.current_foldl_push ..

end VideoTerminal.Text
