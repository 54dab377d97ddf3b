import FormExpr.Proofs.Calendar.Date
import FormExpr.Proofs.Calendar.Format

/-!
# The language of date formats

A format that is accepted is a sequence of plain characters and escapes. It is written piece by
piece, so a text behind it is written as it is alone, and every escape finds its name or number in
any date.
-/

namespace FormExpr.Moment

/-- Characters other than a percent sign, and percent signs with one of the known letters. -/
inductive IsFormat : List Char → Prop where
  | nil : IsFormat []
  | plain {c : Char} {rest : List Char} (hc : c ≠ '%') (hrest : IsFormat rest) : IsFormat (c :: rest)
  | escape {code : Char} {rest : List Char} (hcode : code ∈ formatCodes) (hrest : IsFormat rest) :
    IsFormat ('%' :: code :: rest)

variable {w : WallClock} {s : List Char}

theorem formatWall_plain (w : WallClock) {c : Char} (hc : c ≠ '%') (rest : List Char) :
    formatWall w (c :: rest) = (formatWall w rest).map (c :: ·) := by
  rw [formatWall]
  · rintro rfl
    exact absurd rfl hc
  · rintro code after rfl
    exact absurd rfl hc

theorem exists_escape? (w : WallClock) {code : Char} (hcode : code ∈ formatCodes) :
    ∃ text, escape? w code = some text := by
  rw [← Option.isSome_iff_exists, Option.isSome_iff_ne_none, ne_eq, escape?_eq_none_iff, not_not]
  exact hcode

/-- What a format writes stands in front of what follows it. -/
theorem IsFormat.formatWall_append (h : IsFormat s) (w : WallClock) :
    ∃ out, formatWall w s = .ok out ∧
      ∀ rest, formatWall w (s ++ rest) = (formatWall w rest).map (out ++ ·) := by
  induction h with
  | nil =>
    refine ⟨[], rfl, fun rest => ?_⟩
    rw [List.nil_append]
    cases formatWall w rest <;> rfl
  | @plain c s hc _ ih =>
    obtain ⟨out, hout, happend⟩ := ih
    refine ⟨c :: out, by rw [formatWall_plain w hc, hout]; rfl, fun rest => ?_⟩
    rw [List.cons_append, formatWall_plain w hc, happend]
    cases formatWall w rest <;> rfl
  | @escape code s hcode _ ih =>
    obtain ⟨out, hout, happend⟩ := ih
    obtain ⟨text, htext⟩ := exists_escape? w hcode
    refine ⟨text ++ out, ?_, fun rest => ?_⟩
    · rw [formatWall, htext, hout]
      rfl
    · rw [List.cons_append, List.cons_append, formatWall, htext, happend]
      cases formatWall w rest with
      | error e => rfl
      | ok after => simp only [Except.map, List.append_assoc]

/-- A format is accepted exactly if it is made of plain characters and known escapes. -/
theorem exists_formatWall_iff : (∃ out, formatWall w s = .ok out) ↔ IsFormat s := by
  refine ⟨?_, fun h => (h.formatWall_append w).imp fun _ => And.left⟩
  rintro ⟨out, hout⟩
  fun_induction formatWall w s generalizing out with
  | case1 => exact .nil
  | case2 => cases hout
  | case3 code rest text hcode ih =>
    have hmem : code ∈ formatCodes := by
      by_contra hnot
      rw [escape?_eq_none_iff.2 hnot] at hcode
      cases hcode
    obtain ⟨after, hafter, -⟩ := map_eq_ok_iff.1 hout
    exact .escape hmem (ih after hafter)
  | case4 => cases hout
  | case5 c rest hdangling hescape ih =>
    have hc : c ≠ '%' := by
      rintro rfl
      cases rest with
      | nil => exact hdangling rfl rfl
      | cons code rest => exact hescape code rest rfl rfl
    obtain ⟨after, hafter, -⟩ := map_eq_ok_iff.1 hout
    exact .plain hc (ih after hafter)

/-- The month and the weekday of a date have names. -/
theorem exists_names (w : WallClock) :
    (∃ month ∈ monthNames, escape? w 'b' = some month.toList) ∧
    ∃ day ∈ dayNames, escape? w 'a' = some day.toList := by
  obtain ⟨hfirst, hlast, -⟩ := Date.exists_ofDayNumber w.dayNumber
  have hmonth : w.date.month - 1 < monthNames.length := by
    have hlength : monthNames.length = 12 := rfl
    unfold WallClock.date
    omega
  have hday : Date.weekday w.dayNumber < dayNames.length := by
    have hlength : dayNames.length = 7 := rfl
    unfold Date.weekday
    omega
  refine ⟨⟨monthNames[w.date.month - 1], List.getElem_mem hmonth, ?_⟩,
    ⟨dayNames[Date.weekday w.dayNumber], List.getElem_mem hday, ?_⟩⟩
  · rw [escape?, List.getD_eq_getElem?_getD, List.getElem?_eq_getElem hmonth, Option.getD_some]
  · rw [escape?, List.getD_eq_getElem?_getD, List.getElem?_eq_getElem hday, Option.getD_some]

/-- Whether a text is a format, and which error it gives otherwise, is the same for all points in
time; a format may be cut between its pieces; and what is no point in time has every text as a
format and is written as nothing. -/
theorem format_grammar (t : ZonedTime) (s : List Char) :
    ((∃ out, (valid t).format s = .ok out) ↔ IsFormat s) ∧
    (∀ (t' : ZonedTime) (e : Error), (valid t).format s = .error e ↔ (valid t').format s = .error e) ∧
    (∀ out, (valid t).format s = .ok out → ∀ rest,
      (valid t).format (s ++ rest) = ((valid t).format rest).map (out ++ ·)) ∧
    ((∃ month ∈ monthNames, (valid t).format ['%', 'b'] = .ok month.toList) ∧
      ∃ day ∈ dayNames, (valid t).format ['%', 'a'] = .ok day.toList) ∧
    ∀ m : Moment, m.isValid = false → m.format s = .ok [] := by
  refine ⟨exists_formatWall_iff, ?_, ?_, ⟨?_, ?_⟩, ?_⟩
  · intro t' e
    exact formatWall_eq_error_iff.trans formatWall_eq_error_iff.symm
  · intro out hout rest
    obtain ⟨out', hout', happend⟩ :=
      (exists_formatWall_iff.1 ⟨out, hout⟩).formatWall_append t.wall
    obtain rfl : out = out' := Except.ok.inj (hout.symm.trans hout')
    exact happend rest
  · obtain ⟨month, hmem, htext⟩ := (exists_names t.wall).1
    refine ⟨month, hmem, ?_⟩
    rw [format, formatWall, htext]
    simp [formatWall, Except.map]
  · obtain ⟨day, hmem, htext⟩ := (exists_names t.wall).2
    refine ⟨day, hmem, ?_⟩
    rw [format, formatWall, htext]
    simp [formatWall, Except.map]
  · intro m hm
    cases m with
    | valid time => cases hm
    | _ => rfl

theorem format_grammar_new_year :
    let time : ZonedTime := ⟨1514764800, 0, 0⟩
    (valid time).format "%b %e".toList = .ok "Jan 1".toList ∧
    (valid time).format "%b %e%".toList = .error .danglingEscape ∧
    invalid.format "%b %e%".toList = .ok [] := by
  intro time
  obtain ⟨-, -, happend, -, hinvalid⟩ := format_grammar time "%b %e".toList
  have hout : (valid time).format "%b %e".toList = .ok "Jan 1".toList := by decide
  refine ⟨hout, happend _ hout ['%'], ?_⟩
  exact (format_grammar time "%b %e%".toList).2.2.2.2 invalid rfl

end FormExpr.Moment
