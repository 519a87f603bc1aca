import Turret.Library.ContentLines
import Turret.Library.DecimalText
import Turret.RiskMonitor.Calendar

/-! The calendar file that reminds a borrower of a loan, as `loan-calendar.ts`
builds it. The parser of addresses, `new URL`, is a parameter. -/

namespace Turret.P2P.LoanCalendar

open CodeUnits ContentLines DecimalText

/-- A number, as the checks tell numbers apart. -/
inductive Number
  | safe (n : ℤ) (bound : n.natAbs ≤ 9007199254740991)
  | other

namespace Number

def value : Number → ℤ
  | safe n _ => n
  | other => 0

/-- A sum of safe integers that is not one itself is none of the numbers that are looked at. -/
def plus : Number → ℤ → Number
  | safe n _, m =>
    if bound : (n + m).natAbs ≤ 9007199254740991 then safe (n + m) bound else other
  | other, _ => other

def isSafeInteger : Number → Bool
  | safe .. => true
  | other => false

end Number

structure CalendarMarket where
  chainId : Number
  address : Text
  loanSymbol : Text
  collateralSymbol : Text
  loanDecimals : Number
  collateralDecimals : Number

structure CalendarLoan where
  id : ℤ
  status : Text
  dueAt : Number
  repaymentDeadline : Option Number
  principal : ℤ
  interest : ℤ
  collateral : ℤ

structure CalendarInput where
  market : CalendarMarket
  loan : CalendarLoan
  url : Text
  now : Option Number

/-- What is read of a parsed `URL`. -/
structure Link where
  href : Text
  protocol : Text
  hostname : Text

structure CalendarFile where
  filename : Text
  content : Text

def graceSeconds : ℤ := 86400

/-- 9999-12-31T23:59:59Z. -/
def lastCalendarSecond : ℤ := 253402300799

def maxUint256 : ℤ := 2 ^ 256 - 1

def validTime (number : Number) : Bool :=
  number.isSafeInteger && decide (0 ≤ number.value ∧ number.value ≤ lastCalendarSecond)

/-! ### Text -/

/-- The year, the month and the day of a day since 1970-01-01. Years and months are counted from
March on. -/
def civil (day : ℤ) : ℤ × ℤ × ℤ :=
  let inCenturies := 4 * (day + 719468) + 3
  let inYears := 4 * (inCenturies % 146097 / 4) + 3
  let year := 100 * (inCenturies / 146097) + inYears / 1461
  let dayOfYear := inYears % 1461 / 4
  let month := (5 * dayOfYear + 2) / 153
  (if month < 10 then year else year + 1, if month < 10 then month + 3 else month - 9,
    dayOfYear - (153 * month + 2) / 5 + 1)

def pad (width : ℕ) (n : ℤ) : Text := padStart width (toText n)

/-- `new Date(seconds * 1_000).toISOString()`, of a time in the years 0 to 9999. -/
def toISOString (seconds : ℤ) : Text :=
  let (year, month, day) := civil (seconds / 86400)
  let time := seconds % 86400
  pad 4 year ++ ascii "-" ++ pad 2 month ++ ascii "-" ++ pad 2 day ++ ascii "T" ++
    pad 2 (time / 3600) ++ ascii ":" ++ pad 2 (time / 60 % 60) ++ ascii ":" ++ pad 2 (time % 60) ++
    ascii ".000Z"

/-- `text.replace(pattern, "")`, of the first match of a plain pattern. -/
def removeFirst (pattern : Text) : Text → Text
  | [] => []
  | c :: rest =>
    if pattern.isPrefixOf (c :: rest) then (c :: rest).drop pattern.length
    else c :: removeFirst pattern rest

def utc (value : ℤ) : Text :=
  removeFirst (ascii ".000") ((toISOString value).filter fun c => c != 45 && c != colon)

/-- `text.replace(unit, replacement)`, of every match. -/
def replaceAll (unit : UInt16) (replacement text : Text) : Text :=
  text.flatMap fun c => if c = unit then replacement else [c]

def text (value : Text) : Text :=
  replaceAll comma [backslash, comma] <|
    replaceAll semicolon [backslash, semicolon] <|
      List.filter (fun c => !isControl c) <|
        replaceBreaks (ascii "\\n") <| replaceAll backslash [backslash, backslash] value

def amount (value : ℤ) (decimals : ℕ) : Text :=
  let digits := padStart (decimals + 1) (toText value)
  if decimals = 0 then digits
  else
    let fraction := (digits.drop (digits.length - decimals)).rdropWhile fun c => c == zero
    digits.take (digits.length - decimals) ++ if fraction = [] then [] else point :: fraction

example : utc 1788784496 = ascii "20260907T123456Z" ∧
    amount 2500000000000000001 18 = ascii "2.500000000000000001" ∧
    amount 123 6 = ascii "0.000123" ∧ amount 25000000 6 = ascii "25" ∧ amount 3 0 = ascii "3" := by
  decide +kernel

structure Folding where
  lines : List Text
  current : Text
  bytes : ℕ

def Folding.push (f : Folding) (character : Text) : Folding :=
  let size := octets character
  let f : Folding := if 75 < f.bytes + size then ⟨f.lines ++ [f.current], [space], 1⟩ else f
  ⟨f.lines, f.current ++ character, f.bytes + size⟩

/-- The rows that `fold` joins. -/
def foldRows (line : Text) : List Text :=
  let f := (characters line).foldl Folding.push ⟨[], [], 0⟩
  f.lines ++ [f.current]

def fold (line : Text) : Text := crlf.intercalate (foldRows line)

/-! ### What is accepted -/

/-- What `trim` takes for white space. -/
def isWhiteSpace (c : UInt16) : Bool :=
  decide (9 ≤ c ∧ c ≤ 13 ∨ c = 32 ∨ c = 0xA0 ∨ c = 0x1680 ∨ 0x2000 ≤ c ∧ c ≤ 0x200A ∨
    c = 0x2028 ∨ c = 0x2029 ∨ c = 0x202F ∨ c = 0x205F ∨ c = 0x3000 ∨ c = 0xFEFF)

def trim (text : Text) : Text := (text.dropWhile isWhiteSpace).rdropWhile isWhiteSpace

def isHexDigit (c : UInt16) : Bool :=
  isDigit c || decide (97 ≤ c ∧ c ≤ 102) || decide (65 ≤ c ∧ c ≤ 70)

/-- `/^0x[digits]{40}$/i`. -/
def isHexText (digit : UInt16 → Bool) : Text → Bool
  | z :: x :: digits =>
    z == zero && (x == 120 || x == 88) && digits.length == 40 && digits.all digit
  | _ => false

/-- `toLowerCase` of an ASCII text. -/
def toLowerCase (text : Text) : Text := text.map fun c => if 65 ≤ c ∧ c ≤ 90 then c + 32 else c

def validSymbol (symbol : Text) : Bool :=
  decide (0 < (trim symbol).length ∧ symbol.length ≤ 512)

def validDecimals (decimals : Number) : Bool :=
  decimals.isSafeInteger && decide (0 ≤ decimals.value ∧ decimals.value ≤ 36)

def validAmount (value : ℤ) : Bool := decide (0 ≤ value ∧ value ≤ maxUint256)

def acceptsTimes (loan : CalendarLoan) (finalDeadline now : Number) : Bool :=
  decide (loan.status = ascii "active") && validTime loan.dueAt &&
    decide (loan.dueAt.value ≠ 0) && validTime finalDeadline &&
    decide (loan.dueAt.value + graceSeconds ≤ finalDeadline.value) && validTime now

def acceptsTerms (market : CalendarMarket) (loan : CalendarLoan) : Bool :=
  market.chainId.isSafeInteger && decide (0 < market.chainId.value) &&
    isHexText isHexDigit market.address && !isHexText (fun c => c == zero) market.address &&
    decide (0 < loan.id ∧ loan.id ≤ maxUint256) &&
    [market.loanDecimals, market.collateralDecimals].all validDecimals &&
    [market.loanSymbol, market.collateralSymbol].all validSymbol &&
    [loan.principal, loan.interest, loan.collateral].all validAmount &&
    decide (loan.principal ≠ 0 ∧ loan.collateral ≠ 0 ∧ loan.principal + loan.interest ≤ maxUint256)

def acceptsLink (link : Link) : Bool :=
  (link.protocol == ascii "https:" || link.protocol == ascii "http:") && !link.hostname.isEmpty

/-! ### The file -/

/-- The amounts of a loan as they are printed. -/
structure Amounts where
  repayment : Text
  principal : Text
  interest : Text
  collateral : Text

def amounts (market : CalendarMarket) (loan : CalendarLoan) : Amounts :=
  let loanDecimals := market.loanDecimals.value.toNat
  { repayment := amount (loan.principal + loan.interest) loanDecimals
    principal := amount loan.principal loanDecimals
    interest := amount loan.interest loanDecimals
    collateral := amount loan.collateral market.collateralDecimals.value.toNat }

section File

variable (market : CalendarMarket) (loan : CalendarLoan) (link : Link) (now finalDeadline : ℤ)

def escrow : Text := toLowerCase market.address

def identity : Text :=
  toText market.chainId.value ++ ascii "-" ++ escrow market ++ ascii "-" ++ toText loan.id

def title : Text :=
  ascii "Turret " ++ market.collateralSymbol ++ ascii " loan #" ++ toText loan.id

def repayment (printed : Amounts) : Text := printed.repayment ++ ascii " " ++ market.loanSymbol

def description (printed : Amounts) : Text :=
  [lf].intercalate [
    ascii "Fixed repayment: " ++ repayment market printed ++ ascii " (principal " ++
      printed.principal ++ ascii " + fixed interest " ++ printed.interest ++ ascii " " ++
      market.loanSymbol ++ ascii ").",
    ascii "Collateral at risk: " ++ printed.collateral ++ ascii " " ++ market.collateralSymbol ++
      ascii ".",
    ascii "Due: " ++ toISOString loan.dueAt.value ++ ascii ".",
    ascii "Final repayment deadline: " ++ toISOString finalDeadline ++
      (if loan.dueAt.value + graceSeconds < finalDeadline then ascii " (extended by mutual agreement)"
        else ascii " (24 hours after due)") ++ ascii ".",
    ascii ("Repay by the final deadline to recover collateral. After that deadline, all " ++
      "collateral may be assigned to the lender."),
    ascii "Network, wallet or website outages do not extend the on-chain deadline.",
    ascii ("This downloaded reminder does not update automatically after repayment or " ++
      "settlement. It also does not track deadline extensions. Download a new reminder after " ++
      "agreeing an extension."),
    ascii "Chain: " ++ toText market.chainId.value ++ ascii ". Escrow: " ++ escrow market ++
      ascii ". Loan: " ++ toText loan.id ++ ascii ".",
    ascii "Loan URL: " ++ link.href]

def alarmText (printed : Amounts) : Text :=
  title market loan ++ ascii ": repay " ++ repayment market printed ++
    ascii (" by the final deadline to recover collateral. Outages do not extend the " ++
      "deadline. ") ++ link.href

def event (kind : Text) (start : ℤ) (summary : Text) : List Text :=
  [ascii "BEGIN:VEVENT",
    ascii "UID:turret-p2p-" ++ identity market loan ++ ascii "-" ++ kind ++ ascii "@turret.capital",
    ascii "DTSTAMP:" ++ utc now,
    ascii "DTSTART:" ++ utc start,
    ascii "SUMMARY:" ++ text summary,
    ascii "DESCRIPTION:" ++
      text (description market loan link finalDeadline (amounts market loan)),
    ascii "URL:" ++ link.href,
    ascii "TRANSP:TRANSPARENT"]

def dueSummary : Text := title market loan ++ ascii ": due"

def deadlineSummary : Text := title market loan ++ ascii ": final repayment deadline"

def alarm (trigger : Text) : List Text :=
  [ascii "BEGIN:VALARM", ascii "ACTION:DISPLAY", ascii "TRIGGER;RELATED=START:" ++ trigger,
    ascii "DESCRIPTION:" ++ text (alarmText market loan link (amounts market loan)),
    ascii "END:VALARM"]

/-- `lines`. -/
def logicalLines : List Text :=
  [ascii "BEGIN:VCALENDAR", ascii "VERSION:2.0", ascii "PRODID:-//Turret//P2P Loan Reminders//EN",
    ascii "CALSCALE:GREGORIAN"] ++
  event market loan link now finalDeadline (ascii "due") loan.dueAt.value (dueSummary market loan) ++
  [ascii "END:VEVENT"] ++
  event market loan link now finalDeadline (ascii "deadline") finalDeadline
    (deadlineSummary market loan) ++
  [ascii "-P1D", ascii "-PT1H"].flatMap (alarm market loan link) ++
  [ascii "END:VEVENT", ascii "END:VCALENDAR"]

end File

/-- `clock` is the current second, where the input has none. -/
def loanCalendar (parse : Text → Option Link) (clock : Number) (input : CalendarInput) :
    Option CalendarFile :=
  let market := input.market
  let loan := input.loan
  let now := input.now.getD clock
  let finalDeadline := loan.repaymentDeadline.getD (loan.dueAt.plus graceSeconds)
  if acceptsTimes loan finalDeadline now = false then none
  else if acceptsTerms market loan = false then none
  else if input.url.any fun c => decide (c ≤ 0x20 ∨ c = 0x7F) then none
  else
    match parse input.url with
    | none => none
    | some link =>
      if acceptsLink link = false then none
      else
        let lines := logicalLines market loan link now.value finalDeadline.value
        some
          ⟨ascii "turret-loan-" ++ identity market loan ++ ascii ".ics",
            crlf.intercalate (lines.map fold) ++ crlf⟩

end Turret.P2P.LoanCalendar
