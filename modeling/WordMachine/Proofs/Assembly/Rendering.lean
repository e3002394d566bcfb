import WordMachine.Proofs.Assembly.Listing
import WordMachine.Proofs.Assembly.Quotation
import WordMachine.Proofs.Word

/-!
# Rows as lines of text

A row shows its source and may quote from it. The lines of a source text hold no line feed, so a row
of its listing takes up one line, and the listing has as many lines as the source.
-/

namespace WordMachine

/-! ## Source lines -/

theorem Text.dropLastByte_subset (byte : UInt8) (t : Text) : dropLastByte byte t ⊆ t := by
  unfold dropLastByte
  split
  · exact List.dropLast_subset t
  · exact List.Subset.refl t

theorem Text.lineFeed_not_mem_of_mem_rawLines {t line : Text} (h : line ∈ rawLines t) :
    lineFeed ∉ line := by
  have hpiece : line ∈ split lineFeed t := by
    simp only [rawLines] at h
    split at h
    · exact List.dropLast_subset _ h
    · exact h
  intro hmem
  exact (mem_of_mem_split hpiece hmem).2 rfl

/-- The lines that a source text is cut into hold no line feed. -/
theorem Program.lineFeed_not_mem_of_readSource {source : Text} {lines : List Text}
    (h : readSource source = .ok lines) : ∀ line ∈ lines, Text.lineFeed ∉ line := by
  simp only [readSource] at h
  split at h
  · cases h
    intro line hline hmem
    obtain ⟨read, hread, rfl⟩ := List.mem_map.mp hline
    obtain ⟨raw, hraw, rfl⟩ := List.mem_map.mp hread
    apply Text.lineFeed_not_mem_of_mem_rawLines (List.takeWhile_subset _ hraw)
    exact Text.dropLastByte_subset _ _ (Text.dropLastByte_subset _ _ hmem)
  · cases h

/-! ## Reasons -/

theorem Numeral.lineFeed_not_mem_padded {base : Nat} (hbase : 0 < base) (hbase' : base ≤ 10)
    (width : Nat) (value : Int) : Text.lineFeed ∉ padded base width value := by
  intro h
  rcases isDecimalDigit_of_mem_padded hbase hbase' h with h | h
  · exact absurd h (by decide)
  · exact absurd h (by decide)

@[simp] theorem Numeral.lineFeed_not_mem_decimal (value : Int) : Text.lineFeed ∉ decimal value :=
  lineFeed_not_mem_padded (by decide) (by decide) 0 value

/-- A reason is one line of text if what it quotes is. -/
theorem Cause.lineFeed_not_mem_reason {cause : Cause} (h : Text.lineFeed ∉ cause.quoted) :
    Text.lineFeed ∉ cause.reason := by
  cases cause with
  | missingOperand keyword required received =>
      rw [reason]
      split
      · decide
      · simp only [quoted] at h
        simp only [List.mem_append, h, Numeral.lineFeed_not_mem_decimal, or_false]
        decide
  | extraOperand keyword allowed received =>
      simp only [quoted] at h
      simp only [reason, List.mem_append, h, Numeral.lineFeed_not_mem_decimal, or_false]
      decide
  | unresolvedOperand token asLabel =>
      simp only [quoted] at h
      cases asLabel with
      | true =>
          simp only [reason, Text.inQuotes, List.mem_append, h, or_false]
          decide
      | false =>
          simp only [reason, Text.inQuotes, List.mem_append, h, or_false]
          decide
  | operandRange field least greatest received =>
      simp only [reason, List.mem_append, Numeral.lineFeed_not_mem_decimal, or_false]
      cases field <;> decide
  | unknownMnemonic name =>
      simp only [quoted] at h
      simp only [reason, Text.inQuotes, List.mem_append, h, or_false]
      decide
  | invalidLocation token =>
      simp only [quoted] at h
      simp only [reason, Text.inQuotes, List.mem_append, h, or_false]
      decide
  | redeclaredLabel name =>
      simp only [quoted] at h
      simp only [reason, Text.inQuotes, List.mem_append, h, or_false]
      decide
  | addressOverflow address =>
      rw [reason]
      decide

/-! ## Rows -/

theorem Content.lineFeed_not_mem_columns (content : Content) : Text.lineFeed ∉ content.columns := by
  have hnumber (width : Nat) (value : Int) : Text.lineFeed ∉ Numeral.padded 8 width value :=
    Numeral.lineFeed_not_mem_padded (by decide) (by decide) width value
  cases content with
  | blank => decide
  | location => decide
  | label => decide
  | word address w =>
      simp only [columns, Word.octal, List.mem_append, hnumber, or_false]
      decide
  | rejected address =>
      simp only [columns, List.mem_append, hnumber]
      decide

/-- What follows the source in a row. -/
def Row.trailer (row : Row) : Text :=
  match row.content, row.diagnostic with
  | .blank, _ => []
  | _, none => []
  | _, some d => Text.ascii " ; ERROR: " ++ d.reason

theorem Row.render_eq (row : Row) :
    row.render = row.content.columns ++ row.source ++ row.trailer := by
  obtain ⟨source, content, diagnostic⟩ := row
  cases content <;> cases diagnostic <;>
    simp [Row.render, trailer, Content.render, Content.columns]

theorem Row.lineFeed_not_mem_trailer {row : Row}
    (h : ∀ d ∈ row.diagnostic, Text.lineFeed ∉ d.reason) : Text.lineFeed ∉ row.trailer := by
  unfold trailer
  split
  · decide
  · decide
  · next d hdiagnostic _ =>
      simp only [List.mem_append, h d hdiagnostic, or_false]
      decide

/-- The row of a line takes up one line. -/
theorem Emission.lineFeed_not_mem_render_row {rule : LabelRule} {labels : Labels} (e : Emission)
    {raw : Text} (h : Text.lineFeed ∉ raw) : Text.lineFeed ∉ (e.row rule labels raw).render := by
  have htrailer : Text.lineFeed ∉ (e.row rule labels raw).trailer := by
    apply Row.lineFeed_not_mem_trailer
    intro d hd
    rw [row_diagnostic] at hd
    apply Cause.lineFeed_not_mem_reason
    intro hquoted
    exact h (quoted_subset_of_mem_complaints (List.mem_of_getLast? hd) hquoted)
  rw [Row.render_eq, row_source]
  simp only [List.mem_append, not_or]
  exact ⟨⟨Content.lineFeed_not_mem_columns _, h⟩, htrailer⟩

theorem Emission.lineFeed_not_mem_of_mem_listing {rule : LabelRule} {labels : Labels}
    {lines : List Text} (h : ∀ line ∈ lines, Text.lineFeed ∉ line) :
    ∀ row ∈ (run rule labels lines).listing, Text.lineFeed ∉ row.render := by
  intro row hrow
  obtain ⟨i, raw, hraw, rfl⟩ := exists_line_of_mem_listing hrow
  exact lineFeed_not_mem_render_row _ (h raw (List.mem_of_getElem? hraw))

end WordMachine
