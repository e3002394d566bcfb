import Mathlib.Data.List.TakeWhile
import WordMachine.Text.Lines

/-!
# Lines written and read again

Texts without line feeds that are written one to a line are cut apart again at the same places.
-/

namespace WordMachine.Text

variable {separator : UInt8}

theorem splitLoop_append {t : Text} (h : separator ∉ t) (current : Text) (done : List Text)
    (rest : Text) :
    splitLoop separator current done (t ++ rest) =
      splitLoop separator (t.reverse ++ current) done rest := by
  induction t generalizing current with
  | nil => rfl
  | cons b t ih =>
      rw [List.mem_cons, not_or] at h
      rw [List.cons_append, splitLoop, if_neg (Ne.symm h.1), ih h.2]
      simp

theorem splitLoop_done (current : Text) (done : List Text) (t : Text) :
    splitLoop separator current done t = done.reverse ++ splitLoop separator current [] t := by
  induction t generalizing current done with
  | nil => simp [splitLoop]
  | cons b t ih =>
      by_cases hb : b = separator
      · rw [splitLoop, if_pos hb, ih, splitLoop, if_pos hb, ih [] [current.reverse]]
        simp
      · rw [splitLoop, if_neg hb, ih, splitLoop, if_neg hb]

theorem split_cons_of_not_mem {t : Text} (h : separator ∉ t) (rest : Text) :
    split separator (t ++ separator :: rest) = t :: split separator rest := by
  rw [split, splitLoop_append h, splitLoop, if_pos rfl, splitLoop_done]
  simp [split]

theorem split_of_not_mem {t : Text} (h : separator ∉ t) : split separator t = [t] := by
  have hloop := splitLoop_append h [] [] []
  rw [List.append_nil, List.append_nil] at hloop
  rw [split, hloop, splitLoop]
  simp

/-- A text has no separator, or it is a text without one, a separator, and a further text. -/
@[elab_as_elim]
theorem splitInduction {motive : Text → Prop} (separator : UInt8)
    (piece : ∀ t, separator ∉ t → motive t)
    (cons : ∀ t rest, separator ∉ t → motive rest → motive (t ++ separator :: rest)) (t : Text) :
    motive t := by
  by_cases h : separator ∈ t
  · obtain ⟨first, rest, ht, hfirst⟩ := List.eq_append_cons_of_mem h
    rw [ht]
    exact cons first rest hfirst (splitInduction separator piece cons rest)
  · exact piece t h
termination_by t.length
decreasing_by
  rw [ht, List.length_append, List.length_cons]
  omega

theorem split_ne_nil (t : Text) : split separator t ≠ [] := by
  induction t using splitInduction separator with
  | piece t ht => simp [split_of_not_mem ht]
  | cons t rest ht _ => simp [split_cons_of_not_mem ht]

/-- Joining the pieces of a text by the separator gives the text again. -/
theorem intercalate_split (t : Text) : [separator].intercalate (split separator t) = t := by
  induction t using splitInduction separator with
  | piece t ht => rw [split_of_not_mem ht, List.intercalate_singleton]
  | cons t rest ht ih =>
      rw [split_cons_of_not_mem ht, List.intercalate_cons_of_ne_nil (split_ne_nil rest), ih,
        List.append_assoc, List.singleton_append]

/-- A separator at the end opens one more piece. -/
theorem split_concat (t : Text) :
    split separator (t ++ [separator]) = split separator t ++ [[]] := by
  induction t using splitInduction separator with
  | piece t ht =>
      rw [split_cons_of_not_mem ht, split_of_not_mem ht, split_of_not_mem List.not_mem_nil,
        List.singleton_append]
  | cons t rest ht ih =>
      rw [List.append_assoc, List.cons_append, split_cons_of_not_mem ht,
        split_cons_of_not_mem ht, ih, List.cons_append]

/-- A text without separator at the end belongs to the last piece. -/
theorem map_split_append {α : Type} {f : Text → α} {after : Text} (h : separator ∉ after)
    (hf : ∀ piece, f (piece ++ after) = f piece) (t : Text) :
    (split separator (t ++ after)).map f = (split separator t).map f := by
  induction t using splitInduction separator with
  | piece t ht =>
      have hlast : separator ∉ t ++ after := by simp [ht, h]
      rw [split_of_not_mem hlast, split_of_not_mem ht, List.map_singleton, hf, List.map_singleton]
  | cons t rest ht ih =>
      rw [List.append_assoc, List.cons_append, split_cons_of_not_mem ht,
        split_cons_of_not_mem ht, List.map_cons, ih, List.map_cons]

/-- A text without separator at the head belongs to the first piece. -/
theorem map_split_prepend {α : Type} {f : Text → α} {before : Text} (h : separator ∉ before)
    (hf : ∀ piece, f (before ++ piece) = f piece) (t : Text) :
    (split separator (before ++ t)).map f = (split separator t).map f := by
  induction t using splitInduction separator with
  | piece t ht =>
      have hfirst : separator ∉ before ++ t := by simp [h, ht]
      rw [split_of_not_mem hfirst, split_of_not_mem ht, List.map_singleton, hf, List.map_singleton]
  | cons t rest ht _ =>
      have hfirst : separator ∉ before ++ t := by simp [h, ht]
      rw [← List.append_assoc, split_cons_of_not_mem hfirst, split_cons_of_not_mem ht,
        List.map_cons, hf, List.map_cons]

/-- Pieces that are joined by separators are cut apart at the same places. -/
theorem split_intercalate {pieces : List Text} (h : ∀ t ∈ pieces, separator ∉ t)
    (hne : pieces ≠ []) : split separator ([separator].intercalate pieces) = pieces := by
  induction pieces with
  | nil => exact absurd rfl hne
  | cons t rest ih =>
      have ht := h t List.mem_cons_self
      cases rest with
      | nil => rw [List.intercalate_singleton, split_of_not_mem ht]
      | cons u rest =>
          have hrest : ∀ v ∈ u :: rest, separator ∉ v := fun v hv =>
            h v (List.mem_cons_of_mem t hv)
          rw [List.intercalate_cons_cons, List.append_assoc, List.singleton_append,
            split_cons_of_not_mem ht, ih hrest (List.cons_ne_nil u rest)]

theorem mem_intercalate {pieces : List Text} {b : UInt8}
    (h : b ∈ [separator].intercalate pieces) : b = separator ∨ ∃ t ∈ pieces, b ∈ t := by
  induction pieces with
  | nil => cases h
  | cons t rest ih =>
      cases rest with
      | nil =>
          rw [List.intercalate_singleton] at h
          exact .inr ⟨t, List.mem_cons_self, h⟩
      | cons u rest =>
          rw [List.intercalate_cons_cons, List.mem_append, List.mem_append,
            List.mem_singleton] at h
          rcases h with (h | h) | h
          · exact .inr ⟨t, List.mem_cons_self, h⟩
          · exact .inl h
          · rcases ih h with h | ⟨v, hv, hb⟩
            · exact .inl h
            · exact .inr ⟨v, List.mem_cons_of_mem t hv, hb⟩

/-- What holds of all bytes but the separator holds of the bytes of every piece. -/
theorem forall_mem_of_mem_splitLoop {P : UInt8 → Prop} {current piece t : Text} {done : List Text}
    (h : piece ∈ splitLoop separator current done t) (hcurrent : ∀ b ∈ current, P b)
    (hdone : ∀ p ∈ done, ∀ b ∈ p, P b) (ht : ∀ b ∈ t, b ≠ separator → P b) :
    ∀ b ∈ piece, P b := by
  induction t generalizing current done with
  | nil =>
      simp only [splitLoop, List.mem_reverse, List.mem_cons] at h
      rcases h with rfl | h
      · intro b hb
        exact hcurrent b (List.mem_reverse.mp hb)
      · exact hdone piece h
  | cons c rest ih =>
      have hrest : ∀ b ∈ rest, b ≠ separator → P b := fun b hb => ht b (List.mem_cons_of_mem c hb)
      by_cases hc : c = separator
      · rw [splitLoop, if_pos hc] at h
        apply ih h (by simp) _ hrest
        intro p hp
        rcases List.mem_cons.mp hp with rfl | hp
        · intro b hb
          exact hcurrent b (List.mem_reverse.mp hb)
        · exact hdone p hp
      · rw [splitLoop, if_neg hc] at h
        apply ih h _ hdone hrest
        intro b hb
        rcases List.mem_cons.mp hb with rfl | hb
        · exact ht b List.mem_cons_self hc
        · exact hcurrent b hb

theorem mem_of_mem_split {piece t : Text} (h : piece ∈ split separator t) {b : UInt8}
    (hb : b ∈ piece) : b ∈ t ∧ b ≠ separator :=
  forall_mem_of_mem_splitLoop (P := fun b => b ∈ t ∧ b ≠ separator) h (by simp) (by simp)
    (fun _ hmem hne => ⟨hmem, hne⟩) b hb

theorem split_unlines {ts : List Text} (h : ∀ t ∈ ts, lineFeed ∉ t) :
    split lineFeed (unlines ts) = ts ++ [[]] := by
  induction ts with
  | nil => rfl
  | cons t ts ih =>
      have hunlines : unlines (t :: ts) = t ++ lineFeed :: unlines ts := by
        simp [unlines, line]
      rw [hunlines, split_cons_of_not_mem (h t List.mem_cons_self),
        ih fun u hu => h u (List.mem_cons_of_mem t hu), List.cons_append]

/-- A line feed at the very end opens no further line. -/
theorem rawLines_unlines {ts : List Text} (h : ∀ t ∈ ts, lineFeed ∉ t) :
    rawLines (unlines ts) = ts := by
  simp [rawLines, split_unlines h]

/-- Lines that are short enough are all read. -/
theorem readLines_of_short {limit : Nat} {t : Text} (h : ∀ l ∈ rawLines t, l.length < limit) :
    readLines limit t = ⟨(rawLines t).map (dropLastByte carriageReturn), .complete⟩ := by
  have hshort : ∀ l ∈ rawLines t, decide (l.length < limit) = true := by simpa using h
  simp only [readLines, List.takeWhile_eq_self_iff.mpr hshort,
    List.dropWhile_eq_nil_iff.mpr hshort]

theorem short_of_complete {limit : Nat} {t : Text} (h : (readLines limit t).ending = .complete) :
    ∀ l ∈ rawLines t, l.length < limit := by
  have hnone : (rawLines t).dropWhile (fun l => decide (l.length < limit)) = [] := by
    simp only [readLines] at h
    split at h
    · assumption
    · cases h
  simpa using List.dropWhile_eq_nil_iff.mp hnone

theorem readLines_unlines {limit : Nat} {ts : List Text} (h : ∀ t ∈ ts, lineFeed ∉ t)
    (hlength : ∀ t ∈ ts, t.length < limit) :
    readLines limit (unlines ts) = ⟨ts.map (dropLastByte carriageReturn), .complete⟩ := by
  have hraw := rawLines_unlines h
  rw [readLines_of_short (by rwa [hraw]), hraw]

/-! ## The lines of any text -/

/-- A text consists of lines. Each line ends with a line feed, which only the last one may lack. -/
inductive HasLines : Text → List Text → Prop
  | nil : HasLines [] []
  | last {l : Text} (hfeed : lineFeed ∉ l) (hne : l ≠ []) : HasLines l [l]
  | cons {l rest : Text} {others : List Text} (hfeed : lineFeed ∉ l)
      (hrest : HasLines rest others) : HasLines (l ++ lineFeed :: rest) (l :: others)

theorem rawLines_cons {l : Text} (h : lineFeed ∉ l) (rest : Text) :
    rawLines (l ++ lineFeed :: rest) = l :: rawLines rest := by
  have hne : split lineFeed rest ≠ [] := split_ne_nil rest
  obtain ⟨piece, pieces, hsplit⟩ := List.exists_cons_of_ne_nil hne
  simp only [rawLines, split_cons_of_not_mem h, hsplit, List.getLast?_cons_cons,
    List.dropLast_cons_cons]
  split
  · rfl
  · rfl

theorem rawLines_of_not_mem {l : Text} (h : lineFeed ∉ l) (hne : l ≠ []) : rawLines l = [l] := by
  simp [rawLines, split_of_not_mem h, hne]

/-- Cutting a text at its line feeds gives its lines. -/
theorem hasLines_rawLines (t : Text) : HasLines t (rawLines t) := by
  induction t using splitInduction lineFeed with
  | piece t ht =>
      by_cases hne : t = []
      · rw [hne]
        exact .nil
      · rw [rawLines_of_not_mem ht hne]
        exact .last ht hne
  | cons t rest ht ih =>
      rw [rawLines_cons ht]
      exact .cons ht ih

end WordMachine.Text
