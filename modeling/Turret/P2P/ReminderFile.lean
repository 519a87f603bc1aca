import Turret.P2P.ReminderText

/-! The calendar file can be read: it is the properties of two events and their
alarms in their order, whatever the symbols and the address. -/

namespace Turret.P2P.LoanCalendar

open CodeUnits ContentLines DecimalText

section Properties

variable (market : CalendarMarket) (loan : CalendarLoan) (link : Link) (now finalDeadline : ℤ)

/-- The properties of an event, each with what stands before the colon. -/
def eventProperties (kind : Text) (start : ℤ) (summary : Text) : List (Text × Text) :=
  [(ascii "BEGIN", ascii "VEVENT"),
    (ascii "UID", ascii "turret-p2p-" ++ identity market loan ++ ascii "-" ++ kind ++
      ascii "@turret.capital"),
    (ascii "DTSTAMP", utc now), (ascii "DTSTART", utc start), (ascii "SUMMARY", text summary),
    (ascii "DESCRIPTION",
      text (description market loan link finalDeadline (amounts market loan))),
    (ascii "URL", link.href), (ascii "TRANSP", ascii "TRANSPARENT")]

def alarmProperties (trigger : Text) : List (Text × Text) :=
  [(ascii "BEGIN", ascii "VALARM"), (ascii "ACTION", ascii "DISPLAY"),
    (ascii "TRIGGER;RELATED=START", trigger),
    (ascii "DESCRIPTION", text (alarmText market loan link (amounts market loan))),
    (ascii "END", ascii "VALARM")]

def properties : List (Text × Text) :=
  [(ascii "BEGIN", ascii "VCALENDAR"), (ascii "VERSION", ascii "2.0"),
    (ascii "PRODID", ascii "-//Turret//P2P Loan Reminders//EN"),
    (ascii "CALSCALE", ascii "GREGORIAN")] ++
  eventProperties market loan link now finalDeadline (ascii "due") loan.dueAt.value
    (dueSummary market loan) ++
  [(ascii "END", ascii "VEVENT")] ++
  eventProperties market loan link now finalDeadline (ascii "deadline") finalDeadline
    (deadlineSummary market loan) ++
  alarmProperties market loan link (ascii "-P1D") ++
  alarmProperties market loan link (ascii "-PT1H") ++
  [(ascii "END", ascii "VEVENT"), (ascii "END", ascii "VCALENDAR")]

theorem event_eq (kind : Text) (start : ℤ) (summary : Text) :
    event market loan link now finalDeadline kind start summary =
      (eventProperties market loan link now finalDeadline kind start summary).map fun p =>
        property p.1 p.2 := by
  have begins : ascii "BEGIN:VEVENT" = property (ascii "BEGIN") (ascii "VEVENT") := rfl
  have uid : ∀ rest, ascii "UID:turret-p2p-" ++ rest =
      property (ascii "UID") (ascii "turret-p2p-" ++ rest) := fun _ => rfl
  have stamp : ∀ rest, ascii "DTSTAMP:" ++ rest = property (ascii "DTSTAMP") rest := fun _ => rfl
  have starts : ∀ rest, ascii "DTSTART:" ++ rest = property (ascii "DTSTART") rest := fun _ => rfl
  have summarizes : ∀ rest, ascii "SUMMARY:" ++ rest = property (ascii "SUMMARY") rest :=
    fun _ => rfl
  have describes : ∀ rest, ascii "DESCRIPTION:" ++ rest = property (ascii "DESCRIPTION") rest :=
    fun _ => rfl
  have links : ∀ rest, ascii "URL:" ++ rest = property (ascii "URL") rest := fun _ => rfl
  have transparent : ascii "TRANSP:TRANSPARENT" =
    property (ascii "TRANSP") (ascii "TRANSPARENT") := rfl
  simp only [event, eventProperties, List.map_cons, List.map_nil, List.append_assoc]
  simp only [begins, uid, stamp, starts, summarizes, describes, links, transparent]

theorem alarm_eq (trigger : Text) :
    alarm market loan link trigger =
      (alarmProperties market loan link trigger).map fun p => property p.1 p.2 := by
  have begins : ascii "BEGIN:VALARM" = property (ascii "BEGIN") (ascii "VALARM") := rfl
  have displays : ascii "ACTION:DISPLAY" = property (ascii "ACTION") (ascii "DISPLAY") := rfl
  have triggers : ∀ rest, ascii "TRIGGER;RELATED=START:" ++ rest =
    property (ascii "TRIGGER;RELATED=START") rest := fun _ => rfl
  have describes : ∀ rest, ascii "DESCRIPTION:" ++ rest = property (ascii "DESCRIPTION") rest :=
    fun _ => rfl
  have ends : ascii "END:VALARM" = property (ascii "END") (ascii "VALARM") := rfl
  simp only [alarm, alarmProperties, List.map_cons, List.map_nil, begins, displays, triggers,
    describes, ends]

/-- The lines are the properties. -/
theorem logicalLines_eq :
    logicalLines market loan link now finalDeadline =
      (properties market loan link now finalDeadline).map fun p => property p.1 p.2 := by
  have head : [ascii "BEGIN:VCALENDAR", ascii "VERSION:2.0",
      ascii "PRODID:-//Turret//P2P Loan Reminders//EN", ascii "CALSCALE:GREGORIAN"] =
      [(ascii "BEGIN", ascii "VCALENDAR"), (ascii "VERSION", ascii "2.0"),
        (ascii "PRODID", ascii "-//Turret//P2P Loan Reminders//EN"),
        (ascii "CALSCALE", ascii "GREGORIAN")].map fun p => property p.1 p.2 := rfl
  have middle : [ascii "END:VEVENT"] =
      [(ascii "END", ascii "VEVENT")].map fun p => property p.1 p.2 := rfl
  have tail : [ascii "END:VEVENT", ascii "END:VCALENDAR"] =
      [(ascii "END", ascii "VEVENT"), (ascii "END", ascii "VCALENDAR")].map fun p =>
        property p.1 p.2 := rfl
  simp only [logicalLines, properties, List.map_append, ← event_eq, ← alarm_eq, ← head, ← middle,
    ← tail, List.flatMap_cons, List.flatMap_nil, List.append_nil, List.append_assoc]

end Properties

/-- What stands before the colons, line after line. -/
def heads : List Text :=
  ["BEGIN", "VERSION", "PRODID", "CALSCALE",
    "BEGIN", "UID", "DTSTAMP", "DTSTART", "SUMMARY", "DESCRIPTION", "URL", "TRANSP", "END",
    "BEGIN", "UID", "DTSTAMP", "DTSTART", "SUMMARY", "DESCRIPTION", "URL", "TRANSP",
    "BEGIN", "ACTION", "TRIGGER;RELATED=START", "DESCRIPTION", "END",
    "BEGIN", "ACTION", "TRIGGER;RELATED=START", "DESCRIPTION", "END",
    "END", "END"].map ascii

/-- The names of the properties of the file. -/
def names : List Text :=
  ["BEGIN", "VERSION", "PRODID", "CALSCALE",
    "BEGIN", "UID", "DTSTAMP", "DTSTART", "SUMMARY", "DESCRIPTION", "URL", "TRANSP", "END",
    "BEGIN", "UID", "DTSTAMP", "DTSTART", "SUMMARY", "DESCRIPTION", "URL", "TRANSP",
    "BEGIN", "ACTION", "TRIGGER", "DESCRIPTION", "END",
    "BEGIN", "ACTION", "TRIGGER", "DESCRIPTION", "END",
    "END", "END"].map ascii

/-- A line that begins or ends a component. -/
def isBoundary (line : Text) : Bool :=
  propertyName line == ascii "BEGIN" || propertyName line == ascii "END"

/-- Where the components of the file begin and end. -/
def boundaries : List Text :=
  ["BEGIN:VCALENDAR", "BEGIN:VEVENT", "END:VEVENT", "BEGIN:VEVENT", "BEGIN:VALARM", "END:VALARM",
    "BEGIN:VALARM", "END:VALARM", "END:VEVENT", "END:VCALENDAR"].map ascii

section Reading

variable {market : CalendarMarket} {loan : CalendarLoan} {link : Link} {now finalDeadline : ℤ}
  {head value : Text}

theorem fst_properties :
    (properties market loan link now finalDeadline).map Prod.fst = heads := rfl

theorem colon_notMem_heads : ∀ head ∈ heads, colon ∉ head := by decide

theorem colon_notMem (p : Text × Text)
    (mem : p ∈ properties market loan link now finalDeadline) : colon ∉ p.1 :=
  colon_notMem_heads p.1 (fst_properties ▸ List.mem_map_of_mem mem)

theorem heads_names : heads.map propertyName = names := by decide

theorem map_propertyName :
    (logicalLines market loan link now finalDeadline).map propertyName = names := by
  have named : ∀ p ∈ properties market loan link now finalDeadline,
      propertyName (property p.1 p.2) = propertyName p.1 := fun p mem =>
    propertyName_property (colon_notMem p mem)
  rw [logicalLines_eq, List.map_map, ← heads_names, ← fst_properties, List.map_map]
  exact List.map_congr_left named

/-- The properties of a name, by their positions. -/
theorem filter_names (keep : Text → Bool) :
    (logicalLines market loan link now finalDeadline).filter (fun line => keep (propertyName line)) =
      (select (names.map keep) (properties market loan link now finalDeadline)).map fun p =>
        property p.1 p.2 := by
  rw [logicalLines_eq, filter_properties colon_notMem, fst_properties, heads_names]

theorem filter_isBoundary :
    (logicalLines market loan link now finalDeadline).filter isBoundary = boundaries := by
  have mask : names.map (fun name => name == ascii "BEGIN" || name == ascii "END") =
      [true, false, false, false, true, false, false, false, false, false, false, false, true, true,
        false, false, false, false, false, false, false, true, false, false, false, true, true,
        false, false, false, true, true, true] := by decide
  exact (filter_names fun name => name == ascii "BEGIN" || name == ascii "END").trans (by
    rw [mask]
    rfl)

theorem textsOf_names (name : Text) :
    textsOf name (logicalLines market loan link now finalDeadline) =
      (select (names.map fun n => n == name)
        (properties market loan link now finalDeadline)).map fun p => unescape p.2 := by
  rw [logicalLines_eq, textsOf_properties colon_notMem, fst_properties, heads_names]

theorem summaries :
    textsOf (ascii "SUMMARY") (logicalLines market loan link now finalDeadline) =
      [normalized (dueSummary market loan), normalized (deadlineSummary market loan)] := by
  have mask : names.map (fun name => name == ascii "SUMMARY") =
      [false, false, false, false, false, false, false, false, true, false, false, false, false,
        false, false, false, false, true, false, false, false, false, false, false, false, false,
        false, false, false, false, false, false, false] := by decide
  rw [textsOf_names, mask, ← unescape_text, ← unescape_text]
  rfl

theorem descriptions :
    textsOf (ascii "DESCRIPTION") (logicalLines market loan link now finalDeadline) =
      [normalized (description market loan link finalDeadline (amounts market loan)),
        normalized (description market loan link finalDeadline (amounts market loan)),
        normalized (alarmText market loan link (amounts market loan)),
        normalized (alarmText market loan link (amounts market loan))] := by
  have mask : names.map (fun name => name == ascii "DESCRIPTION") =
      [false, false, false, false, false, false, false, false, false, true, false, false, false,
        false, false, false, false, false, true, false, false, false, false, false, true, false,
        false, false, false, true, false, false, false] := by decide
  rw [textsOf_names, mask, ← unescape_text, ← unescape_text]
  rfl

/-! ### The file -/

theorem unbroken_event (address : Printable market.address) (href : Printable link.href)
    {kind : Text} (kinds : Printable kind) (start : ℤ) (summary : Text) :
    ∀ p ∈ eventProperties market loan link now finalDeadline kind start summary, Unbroken p.2 := by
  have identified : Printable (identity market loan) :=
    (((((printable_toText _).append (by decide)).append (printable_toLowerCase address)).append
      (by decide)).append (printable_toText _))
  have uid : Printable (ascii "turret-p2p-" ++ identity market loan ++ ascii "-" ++ kind ++
      ascii "@turret.capital") :=
    (((Printable.append (by decide) identified).append (by decide)).append kinds).append (by decide)
  simp only [eventProperties, List.forall_mem_cons]
  exact ⟨by decide, uid.unbroken, (printable_utc _).unbroken, (printable_utc _).unbroken,
    unbroken_text _, unbroken_text _, href.unbroken, by decide, nofun⟩

theorem unbroken_alarm {trigger : Text} (triggers : Unbroken trigger) :
    ∀ p ∈ alarmProperties market loan link trigger, Unbroken p.2 := by
  simp only [alarmProperties, List.forall_mem_cons]
  exact ⟨by decide, by decide, triggers, unbroken_text _, by decide, nofun⟩

theorem unbroken_values (address : Printable market.address) (href : Printable link.href) :
    ∀ p ∈ properties market loan link now finalDeadline, Unbroken p.2 := by
  simp only [properties, List.forall_mem_append]
  refine ⟨⟨⟨⟨⟨⟨?_, unbroken_event address href (by decide) _ _⟩, ?_⟩,
    unbroken_event address href (by decide) _ _⟩, unbroken_alarm (by decide)⟩,
    unbroken_alarm (by decide)⟩, ?_⟩
  · decide
  · decide
  · decide

theorem unbroken_heads : ∀ head ∈ heads, Unbroken head ∧ head ≠ [] ∧ head.head? ≠ some space := by
  decide

theorem encodes_lines (address : Printable market.address) (href : Printable link.href) :
    Encodes (crlf.intercalate ((logicalLines market loan link now finalDeadline).map fold) ++ crlf)
      (logicalLines market loan link now finalDeadline) := by
  have parts : ∀ line ∈ logicalLines market loan link now finalDeadline,
      ∃ head value, line = property head value ∧ head ∈ heads ∧ Unbroken value := by
    intro line mem
    rw [logicalLines_eq] at mem
    obtain ⟨p, at_p, rfl⟩ := List.mem_map.mp mem
    exact ⟨p.1, p.2, rfl, fst_properties ▸ List.mem_map_of_mem at_p,
      unbroken_values address href p at_p⟩
  refine encodes_fold (by simp [logicalLines]) (fun line _ => foldRows_folds line) ?_ ?_
  · intro line mem
    obtain ⟨head, value, rfl, at_head, clean⟩ := parts line mem
    have mark : Unbroken [colon] := by decide
    exact (unbroken_heads head at_head).1.append (mark.append clean)
  · intro line mem
    obtain ⟨head, value, rfl, at_head, -⟩ := parts line mem
    obtain ⟨-, begun, start⟩ := unbroken_heads head at_head
    rwa [property, List.head?_append_of_ne_nil _ begun]

/-- What a reader finds in the file of a loan. -/
structure Decodes (market : CalendarMarket) (loan : CalendarLoan) (link : Link)
    (now finalDeadline : ℤ) (content : Text) : Prop where
  lines : Encodes content (logicalLines market loan link now finalDeadline)
  names : (logicalLines market loan link now finalDeadline).map propertyName = names
  boundaries : (logicalLines market loan link now finalDeadline).filter isBoundary = boundaries
  summaries : textsOf (ascii "SUMMARY") (logicalLines market loan link now finalDeadline) =
    [normalized (dueSummary market loan), normalized (deadlineSummary market loan)]
  descriptions : textsOf (ascii "DESCRIPTION") (logicalLines market loan link now finalDeadline) =
    [normalized (description market loan link finalDeadline (amounts market loan)),
      normalized (description market loan link finalDeadline (amounts market loan)),
      normalized (alarmText market loan link (amounts market loan)),
      normalized (alarmText market loan link (amounts market loan))]
  repayment : readDecimal (amounts market loan).repayment =
    some ((loan.principal + loan.interest) / 10 ^ market.loanDecimals.value.toNat : ℚ)
  principal : readDecimal (amounts market loan).principal =
    some (loan.principal / 10 ^ market.loanDecimals.value.toNat : ℚ)
  interest : readDecimal (amounts market loan).interest =
    some (loan.interest / 10 ^ market.loanDecimals.value.toNat : ℚ)
  collateral : readDecimal (amounts market loan).collateral =
    some (loan.collateral / 10 ^ market.collateralDecimals.value.toNat : ℚ)

theorem amount_nonneg {value : ℤ} (h : validAmount value = true) : 0 ≤ value := by
  simp only [validAmount, decide_eq_true_eq] at h
  exact h.1

/-- The amounts that are printed read back. -/
theorem decodes (address : Printable market.address) (href : Printable link.href)
    (valid : [loan.principal, loan.interest, loan.collateral].all validAmount = true) :
    Decodes market loan link now finalDeadline
      (crlf.intercalate ((logicalLines market loan link now finalDeadline).map fold) ++ crlf) := by
  simp only [List.all_cons, List.all_nil, Bool.and_true, Bool.and_eq_true] at valid
  obtain ⟨principal, interest, collateral⟩ := valid
  have total : 0 ≤ loan.principal + loan.interest :=
    add_nonneg (amount_nonneg principal) (amount_nonneg interest)
  have repayment := readDecimal_amount total market.loanDecimals.value.toNat
  rw [Int.cast_add] at repayment
  exact
    { lines := encodes_lines address href
      names := map_propertyName
      boundaries := filter_isBoundary
      summaries := summaries
      descriptions := descriptions
      repayment := repayment
      principal := readDecimal_amount (amount_nonneg principal) _
      interest := readDecimal_amount (amount_nonneg interest) _
      collateral := readDecimal_amount (amount_nonneg collateral) _ }

end Reading

/-- Whatever the symbols, the amounts, the times and the address of a loan whose file is built, the
file decodes to its lines, its texts and its amounts. The parser writes the addresses that it
accepts in printable ASCII. -/
theorem reminder_file_decodes {parse : Text → Option Link} {clock : Number} {input : CalendarInput}
    {file : CalendarFile}
    (printable : ∀ url link, parse url = some link → acceptsLink link = true → Printable link.href)
    (accepted : loanCalendar parse clock input = some file) :
    ∃ link, parse input.url = some link ∧
      Decodes input.market input.loan link (input.now.getD clock).value
        (input.loan.repaymentDeadline.getD (input.loan.dueAt.plus graceSeconds)).value
        file.content := by
  unfold loanCalendar at accepted
  dsimp only at accepted
  split at accepted
  · cases accepted
  · split at accepted
    · cases accepted
    · rename_i terms
      split at accepted
      · cases accepted
      · split at accepted
        · cases accepted
        · rename_i link parsed
          split at accepted
          · cases accepted
          · rename_i linked
            cases accepted
            simp only [Bool.not_eq_false] at terms linked
            simp only [acceptsTerms, Bool.and_eq_true] at terms
            obtain ⟨⟨⟨⟨⟨⟨⟨⟨-, -⟩, address⟩, -⟩, -⟩, -⟩, -⟩, valid⟩, -⟩ := terms
            exact ⟨link, parsed, decodes (printable_of_isHexText printable_of_isHexDigit address)
              (printable input.url link parsed linked) valid⟩

/-! ### A loan whose symbol is made to inject lines -/

def sampleUrl : Text := ascii "https://turret.capital/p2p?market=0xabc&loan=42"

/-- The parser, at the one address that is parsed. -/
def sampleParse (url : Text) : Option Link :=
  if url = sampleUrl then some ⟨sampleUrl, ascii "https:", ascii "turret.capital"⟩ else none

def sampleInput : CalendarInput where
  market :=
    { chainId := .safe 4663 (by decide)
      address := ascii "0xabcdef1234567890abcdef1234567890abcdef12"
      loanSymbol := ascii "USDG"
      collateralSymbol := ascii "AAPL, Inc; \\\r\nBEGIN:VEVENT\nSUMMARY:injected" ++
        [0x2028, 0, 0xD83D, 0xDCC6, 0xD83D]
      loanDecimals := .safe 6 (by decide)
      collateralDecimals := .safe 18 (by decide) }
  loan :=
    { id := 42
      status := ascii "active"
      dueAt := .safe 1788784496 (by decide)
      repaymentDeadline := none
      principal := 25000001
      interest := 1250002
      collateral := 2500000000000000001 }
  url := sampleUrl
  now := some (.safe 1788224523 (by decide))

theorem sample_reminder :
    ∃ file link, loanCalendar sampleParse .other sampleInput = some file ∧
      sampleParse sampleInput.url = some link ∧
      Decodes sampleInput.market sampleInput.loan link 1788224523 1788870896 file.content := by
  have built : (loanCalendar sampleParse .other sampleInput).isSome = true := by decide +kernel
  have printable : ∀ url link, sampleParse url = some link → acceptsLink link = true →
      Printable link.href := by
    intro url link parsed _
    unfold sampleParse at parsed
    split at parsed
    · cases parsed
      decide
    · cases parsed
  obtain ⟨file, accepted⟩ := Option.isSome_iff_exists.mp built
  obtain ⟨link, parsed, decoded⟩ := reminder_file_decodes printable accepted
  exact ⟨file, link, accepted, parsed, decoded⟩

end Turret.P2P.LoanCalendar
