import SqlWeave.Proofs.Scan.Agreement

/-!
# Quoted regions in a row

The quoted regions of a text are those of its units that begin with a quote.  They are collected
from character to character as well: `Mode.quotedFrom` reads a text in a mode and gives the rest
of the region that is open, if there is one, and the regions behind it.  A region goes on behind
its closing quote if the same quote comes next.

How many characters of a text are quoted is counted along the modes (`Mode.countQuoted`).

## Main results

* `quotedRegions_eq`: the regions among the units are those that the modes collect.
* `Mode.length_flatten_quotedFrom`: the quoted regions have as many characters as are quoted.
* `Mode.quotedFrom_append_congr`: texts behind a common front are told apart by what is quoted in
  them alone.
-/

namespace SqlWeave.Sql

open Region

namespace Mode

/-- Does the scan stand in a quoted region? -/
def isQuoted : Mode → Bool
  | quoted _ | escaped _ => true
  | _ => false

/-- The quoted regions of a text that is read in a mode, the rest of an open one first. -/
def quotedFrom (m : Mode) : List Char → List (List Char)
  | [] => if m.isQuoted then [[]] else []
  | c :: rest =>
    let regions := quotedFrom (m.next c) rest
    if (m.next c).isQuoted || m.isQuoted && rest.head? == some c then extendHead [c] regions
    else if m.isQuoted then [c] :: regions
    else regions

/-- How many characters of a text that is read in a mode are quoted, the quotes counted. -/
def countQuoted (m : Mode) : List Char → Nat
  | [] => 0
  | c :: rest =>
    (if (m.next c).isQuoted || m.isQuoted then 1 else 0) + countQuoted (m.next c) rest

theorem isQuoted_of_isOutside {m : Mode} (h : m.isOutside = true) : m.isQuoted = false := by
  cases m <;> first | rfl | cases h

theorem quotedFrom_ne_nil {m : Mode} (h : m.isQuoted = true) (s : List Char) :
    m.quotedFrom s ≠ [] := by
  cases s with
  | nil => simp [quotedFrom, h]
  | cons c rest =>
    simp only [quotedFrom, h, if_true]
    split
    · exact extendHead_ne_nil _ _
    · exact List.cons_ne_nil _ _

/-- A character that is quoted and does not end the region, or opens one. -/
theorem quotedFrom_cons_of_quoted {m : Mode} {c : Char} (h : (m.next c).isQuoted = true)
    (rest : List Char) :
    m.quotedFrom (c :: rest) = extendHead [c] ((m.next c).quotedFrom rest) := by
  simp [quotedFrom, h]

/-- A character that is not quoted. -/
theorem quotedFrom_cons_of_not {m : Mode} {c : Char} (hm : m.isQuoted = false)
    (h : (m.next c).isQuoted = false) (rest : List Char) :
    m.quotedFrom (c :: rest) = (m.next c).quotedFrom rest := by
  simp [quotedFrom, hm, h]

/-- A closing quote ends the region unless it comes again. -/
theorem quotedFrom_quote (q : Char) (rest : List Char) :
    (quoted q).quotedFrom (q :: rest) =
      if rest.head? = some q then extendHead [q] (plain.quotedFrom rest)
      else [q] :: plain.quotedFrom rest := by
  have hNext : (quoted q).next q = plain := by simp [next]
  rw [quotedFrom, hNext]
  simp [isQuoted]

theorem extendHead_append_right (front : List Char) {pieces : List (List Char)} (h : pieces ≠ [])
    (more : List (List Char)) :
    extendHead front (pieces ++ more) = extendHead front pieces ++ more := by
  cases pieces with
  | nil => exact absurd rfl h
  | cons piece pieces => rfl

theorem length_flatten_extendHead (front : List Char) (pieces : List (List Char)) :
    (extendHead front pieces).flatten.length = front.length + pieces.flatten.length := by
  cases pieces <;> simp [extendHead]

/-- The quoted regions have as many characters as are quoted. -/
theorem length_flatten_quotedFrom (m : Mode) (s : List Char) :
    (m.quotedFrom s).flatten.length = m.countQuoted s := by
  induction s generalizing m with
  | nil => cases hm : m.isQuoted <;> simp [quotedFrom, countQuoted, hm]
  | cons c rest ih =>
    simp only [quotedFrom, countQuoted, ← ih]
    cases hNext : (m.next c).isQuoted with
    | true => exact length_flatten_extendHead _ _
    | false =>
      cases hm : m.isQuoted with
      | true =>
        split
        · exact length_flatten_extendHead _ _
        · exact Nat.add_comm _ _
      | false => exact (Nat.zero_add _).symm

theorem quotedFrom_of_next_eq {m n : Mode} {s : List Char} (hQuoted : m.isQuoted = n.isQuoted)
    (hNext : ∀ c, s.head? = some c → m.next c = n.next c) : m.quotedFrom s = n.quotedFrom s := by
  cases s with
  | nil => rw [quotedFrom, quotedFrom, hQuoted]
  | cons c rest => rw [quotedFrom, quotedFrom, hQuoted, hNext c rfl]

theorem countQuoted_append (m : Mode) (s t : List Char) :
    m.countQuoted (s ++ t) = m.countQuoted s + (m.after s).countQuoted t := by
  induction s generalizing m with
  | nil => simp [countQuoted]
  | cons c rest ih => rw [List.cons_append, countQuoted, countQuoted, ih, after_cons, Nat.add_assoc]

/-- Texts behind a common front are told apart by what is quoted in them alone. -/
theorem quotedFrom_append_congr {m : Mode} (s : List Char) {t u : List Char}
    (hHead : t.head? = u.head?)
    (h : (m.after s).quotedFrom t = (m.after s).quotedFrom u) :
    m.quotedFrom (s ++ t) = m.quotedFrom (s ++ u) := by
  induction s generalizing m with
  | nil => exact h
  | cons c rest ih =>
    have hRest : (rest ++ t).head? = (rest ++ u).head? := by
      rw [List.head?_append, List.head?_append, hHead]
    rw [List.cons_append, List.cons_append, quotedFrom, quotedFrom, ih h, hRest]

/-! ## Regions -/

/-- The rest of a quoted region, and the regions behind it. -/
theorem quotedFrom_runQuoted {q : Char} (hq : isQuote q = true) (s : List Char) :
    (quoted q).quotedFrom s = (runQuoted q s).1 :: plain.quotedFrom (runQuoted q s).2 := by
  fun_induction runQuoted q s with
  | case1 => rfl
  | case2 c hc d more hd ih =>
    simp only [beq_iff_eq] at hc hd
    subst hc hd
    have hOpen : plain.next d = quoted d := entry_of_isQuote hq
    rw [quotedFrom_quote, if_pos List.head?_cons, quotedFrom_cons_of_quoted (by rw [hOpen]; rfl),
      hOpen, ih]
    rfl
  | case3 c hc d more hd =>
    simp only [beq_iff_eq] at hc hd
    subst hc
    rw [quotedFrom_quote, if_neg (by simpa using hd)]
  | case4 c hc =>
    simp only [beq_iff_eq] at hc
    subst hc
    rw [quotedFrom_quote, if_neg (by simp)]
  | case5 c hc hEscape d more ih =>
    have hNext : (quoted q).next c = escaped q := by simp [next, hc, hEscape]
    rw [quotedFrom_cons_of_quoted (by rw [hNext]; rfl), hNext,
      quotedFrom_cons_of_quoted (m := escaped q) rfl]
    show extendHead [c] (extendHead [d] ((quoted q).quotedFrom more)) = _
    rw [ih]
    rfl
  | case6 c hc hEscape =>
    have hNext : (quoted q).next c = escaped q := by simp [next, hc, hEscape]
    rw [quotedFrom_cons_of_quoted (by rw [hNext]; rfl), hNext]
    rfl
  | case7 c rest hc hEscape ih =>
    have hNext : (quoted q).next c = quoted q := by simp [next, hc, hEscape]
    rw [quotedFrom_cons_of_quoted (by rw [hNext]; rfl), hNext, ih]
    rfl

/-- Nothing is quoted in the rest of a line in a comment. -/
theorem quotedFrom_restOfLine (s : List Char) :
    line.quotedFrom s = plain.quotedFrom (restOfLine s).2 := by
  induction s with
  | nil => rfl
  | cons c rest ih =>
    by_cases hBreak : c = '\n'
    · subst hBreak
      rfl
    · have hStay : line.next c = line := by simp [next, hBreak]
      rw [quotedFrom_cons_of_not rfl (by rw [hStay]; rfl), hStay, ih]
      simp [restOfLine, hBreak]

theorem InBlock.isQuoted {m : Mode} {s : List Char} (h : InBlock m s) : m.isQuoted = false := by
  rcases h with rfl | ⟨rfl, -⟩ <;> rfl

/-- Nothing is quoted in the rest of a block comment. -/
theorem quotedFrom_closeBlock? {m : Mode} {s : List Char} (hm : InBlock m s) :
    m.quotedFrom s = plain.quotedFrom ((closeBlock? s).getD (s, [])).2 := by
  fun_induction closeBlock? s generalizing m with
  | case1 => rw [quotedFrom, if_neg (by simp [hm.isQuoted])]; rfl
  | case2 more =>
    have hStar : m.next '*' = star := by
      rcases hm with rfl | ⟨rfl, -⟩ <;> rfl
    rw [quotedFrom_cons_of_not hm.isQuoted (by rw [hStar]; rfl), hStar]
    rfl
  | case3 c rest hEnd ih =>
    obtain ⟨-, hNext⟩ := hm.next hEnd
    rw [quotedFrom_cons_of_not hm.isQuoted hNext.isQuoted, ih hNext]
    cases closeBlock? rest <;> rfl

end Mode

open Mode

/-! ## The quoted regions of a text -/

/-- The text of a quoted region. -/
def Token.quoted? : Token → Option (List Char)
  | .region text => if text.head?.any isQuote then some text else none
  | _ => none

/-- The quoted regions of a text, as a splitter reads it. -/
def quotedRegions (s : List Char) : List (List Char) :=
  (units s).filterMap Token.quoted?

/-- What is quoted in a text that starts with a region. -/
theorem quotedFrom_openEnded? {s : List Char} {cut : Cut} (h : openEnded? s = some cut) :
    plain.quotedFrom s = (Token.quoted? (.region cut.1)).toList ++ plain.quotedFrom cut.2 := by
  unfold openEnded? at h
  split at h
  · cases h
    exact quotedFrom_restOfLine _
  · cases h
    rename_i rest
    rw [show plain.quotedFrom ('/' :: '*' :: rest) = block.quotedFrom rest from rfl,
      quotedFrom_closeBlock? (.inl rfl)]
    rfl
  · split at h
    · next hQuote =>
      cases h
      have hOpen := entry_of_isQuote hQuote
      rw [quotedFrom_cons_of_quoted (m := plain) (by rw [next, hOpen]; rfl), next, hOpen,
        quotedFrom_runQuoted hQuote]
      simp [Token.quoted?, Cut.extend, hQuote]
    · cases h
  · cases h

/-- What is quoted in a text that starts with no region. -/
theorem quotedFrom_of_plain {c : Char} {rest : List Char} (h : openEnded? (c :: rest) = none) :
    plain.quotedFrom (c :: rest) = plain.quotedFrom rest := by
  obtain ⟨hOut, hNext⟩ := plain_next_of_no_region h
  have hQuoted := isQuoted_of_isOutside hOut
  rw [quotedFrom_cons_of_not rfl hQuoted]
  exact quotedFrom_of_next_eq hQuoted hNext

/-- The regions among the units of a text are those that the modes collect. -/
theorem quotedRegions_eq (s : List Char) : quotedRegions s = plain.quotedFrom s := by
  rw [quotedRegions]
  fun_induction units s with
  | case1 => rfl
  | case2 c rest region tail hRegion _ ih =>
    rw [quotedFrom_openEnded? hRegion, ← ih, List.filterMap_cons]
    cases Token.quoted? (.region region) <;> rfl
  | case3 c rest hRegion ih =>
    rw [quotedFrom_of_plain hRegion, ← ih]
    rfl

end SqlWeave.Sql
