import EasyBook.Bookings.Model
import EasyBook.Ecma.Clock
import EasyBook.Ecma.Rewrites

/-!
# The message of a support report

`buildDiscordPayload` writes a report as the Markdown of a Discord message: a heading, the reporter
and the telephone number as spoilers, and the page, the description and the diagnostics as code.
Free text is sanitised first and cut afterwards, and what is left of the 2000 units that a message
may have goes to the description, then to the diagnostics.
-/

namespace EasyBook.Support

open JsString JsDate

/-! ### The constants -/

/-- `SUPPORT_CATEGORIES`. -/
inductive SupportCategory where
  | web
  | line
  | booking
  | access
  | other

/-- `SUPPORT_SEVERITIES`. -/
inductive SupportSeverity where
  | normal
  | urgent
  | critical

def supportPathMax : ℤ := 200

def supportBotUsername : JsString := lit "EasyBook Incident Bot"

def discordContentMax : ℤ := 2000

def supportPhoneFallback : JsString := lit "ไม่ได้ระบุ"

def supportReporterNameMax : ℤ := 100

def supportPhoneMax : ℤ := 40

def supportCategoryLabel : SupportCategory → JsString
  | .web => lit "บั๊กหน้าเว็บ"
  | .line => lit "การเชื่อมต่อ LINE"
  | .booking => lit "การจองและปฏิทิน"
  | .access => lit "สิทธิ์การใช้งาน"
  | .other => lit "อื่นๆ"

def supportSeverityLabel : SupportSeverity → JsString
  | .normal => lit "ปกติ"
  | .urgent => lit "เร่งด่วน"
  | .critical => lit "วิกฤต"

def supportRoleLabel : SystemRole → JsString
  | .superAdmin => lit "ผู้ดูแลระบบสูงสุด"
  | .admin => lit "เจ้าหน้าที่ดูแลระบบ"
  | .viewer => lit "ผู้ดูข้อมูล"

def supportSeverityEmoji : SupportSeverity → JsString
  | .normal => lit "🔵"
  | .urgent => lit "🟡"
  | .critical => lit "🔴"

/-- `SupportSeverityPing`; the only group that is ever pinged is `everyone`. -/
structure SupportSeverityPing where
  line : JsString
  everyone : Bool

def supportSeverityPing : SupportSeverity → SupportSeverityPing
  | .normal => ⟨[], false⟩
  | .urgent => ⟨lit "@Tech Support", false⟩
  | .critical => ⟨lit "@here", true⟩

def empty : JsString := lit "—"

def ellipsis : ℕ := 0x2026

def zwsp : ℕ := 0x200B

/-- A Hangul filler. -/
def separator : JsString := [0x3164]

def backtick : ℕ := 0x60

def pipe : ℕ := 0x7C

def fence : JsString := List.replicate 3 backtick

def thaiMonths : List JsString :=
  [lit "มกราคม", lit "กุมภาพันธ์", lit "มีนาคม", lit "เมษายน", lit "พฤษภาคม", lit "มิถุนายน",
    lit "กรกฎาคม", lit "สิงหาคม", lit "กันยายน", lit "ตุลาคม", lit "พฤศจิกายน", lit "ธันวาคม"]

/-! ### Texts -/

/-- `truncateText`. -/
def truncateText (value : JsString) (max : ℤ) : JsString :=
  if max ≤ 0 then []
  else if value.length ≤ max then value
  else
    let cut := value.take (max - 1).toNat
    let cut := if ∃ last ∈ cut.getLast?, High last then cut.dropLast else cut
    cut ++ [ellipsis]

/-- `.replace(/\r\n?/g, '\n')`. -/
def normaliseNewlines : JsString → JsString
  | [] => []
  | [u] => [if u = 13 then 10 else u]
  | u :: v :: s =>
    if u = 13 then
      if v = 10 then 10 :: normaliseNewlines s else 10 :: normaliseNewlines (v :: s)
    else u :: normaliseNewlines (v :: s)

/-- What becomes of a run of backticks. -/
def breakRun (run : JsString) : JsString := if 3 ≤ run.length then run.intersperse zwsp else run

/-- `sanitizeBlock`. -/
def sanitizeBlock (value : JsString) : JsString :=
  replaceRuns (· == backtick) breakRun [] (normaliseNewlines value)

/-- `.replace(/\n+/g, ' ').trim()` of a sanitised text. -/
def oneLine (value : JsString) : JsString :=
  trim (replaceRuns (· == 10) (fun _ ↦ [0x20]) [] (sanitizeBlock value))

/-- `sanitizeInline`. -/
def sanitizeInline (value : JsString) : JsString :=
  let out := oneLine value
  let out := if out.head? = some backtick then zwsp :: out else out
  if out.getLast? = some backtick then out ++ [zwsp] else out

/-- `.replace(/\|(?=\|)/g, …)`. -/
def breakPipes : JsString → JsString
  | [] => []
  | [u] => [u]
  | u :: v :: s =>
    if u = pipe ∧ v = pipe then pipe :: zwsp :: breakPipes (v :: s) else u :: breakPipes (v :: s)

/-- `sanitizeSpoiler`. -/
def sanitizeSpoiler (value : JsString) : JsString := breakPipes (sanitizeInline value)

/-- `a || b` of strings. -/
def orElse (a b : JsString) : JsString := if a = [] then b else a

/-- `pad2`. -/
def pad2 (n : Option ℤ) : JsString := padStart 2 0x30 (ofNumber n)

/-- The result of `bangkokParts`, as it is written. -/
structure BangkokParts where
  day : JsString
  month : JsString
  buddhistYear : JsString
  hh : JsString
  mm : JsString

/-- `bangkokParts`, of a time value. -/
def bangkokParts (time : Option ℤ) : BangkokParts :=
  let shifted := time.bind fun t ↦ timeClip (t + 7 * 60 * 60 * 1000)
  { day := ofNumber (shifted.map fun t ↦ dateFromDay (day t))
    month := (shifted.bind fun t ↦ thaiMonths[monthFromDay (day t)]?).getD (lit "undefined")
    buddhistYear := ofNumber (shifted.map fun t ↦ yearFromDay (day t) + 543)
    hh := pad2 (shifted.map hourFromTime)
    mm := pad2 (shifted.map minFromTime) }

/-- `inlineBlock`. -/
def inlineBlock (value : JsString) : JsString := fence ++ value ++ fence

/-- `multilineBlock`. -/
def multilineBlock (body : JsString) : JsString := fence ++ [10] ++ body ++ [10] ++ fence

/-! ### The payload -/

/-- `SupportPayloadInput`; a file is its name. -/
structure SupportPayloadInput where
  code : JsString
  category : SupportCategory
  severity : SupportSeverity
  role : SystemRole
  reporterName : Option JsString
  phoneNumber : Option JsString
  path : JsString
  description : JsString
  diagnostics : Option JsString
  timestamp : Option ℤ
  files : List JsString

/-- `DiscordPayload`. -/
structure DiscordPayload where
  username : JsString
  content : JsString
  tts : Bool
  flags : ℕ
  embeds : List Unit
  components : List Unit
  pingsEveryone : Bool
  attachments : List (ℕ × JsString)

variable (input : SupportPayloadInput)

/-- `reporterName`. -/
def reporterName : JsString :=
  truncateText (orElse (sanitizeSpoiler (input.reporterName.getD [])) empty)
    supportReporterNameMax

/-- `phone`. -/
def phone : JsString :=
  truncateText (orElse (sanitizeSpoiler (input.phoneNumber.getD [])) supportPhoneFallback)
    supportPhoneMax

/-- `path`. -/
def path : JsString := truncateText (orElse (sanitizeInline input.path) empty) supportPathMax

/-- `description`. -/
def description : JsString := trim (sanitizeBlock input.description)

/-- `diagnostics`. -/
def diagnostics : JsString := orElse (trim (sanitizeBlock (input.diagnostics.getD []))) empty

/-- The lines of `assemble`. -/
def lines (descBody diagBody : JsString) : List JsString :=
  let ping := supportSeverityPing input.severity
  let when := bangkokParts input.timestamp
  (if ping.line = [] then [] else [ping.line]) ++
    [ lit "# รายการปัญหาจากระบบ ที่ " ++ input.code ++ lit "/" ++ when.buddhistYear ++ lit " " ++
        supportSeverityEmoji input.severity,
      lit "> วันที่ " ++ when.day ++ lit " " ++ when.month ++ lit " " ++ when.buddhistYear ++
        lit "  เวลา " ++ when.hh ++ lit "." ++ when.mm ++ lit " น.",
      separator,
      lit "**ผู้แจ้ง:**",
      lit "||" ++ inlineBlock (reporterName input ++ lit "  (" ++ supportRoleLabel input.role ++
        lit ")") ++ lit "||",
      lit "**เบอร์โทรศัพท์:**",
      lit "||" ++ inlineBlock (phone input) ++ lit "||",
      separator,
      lit "**ประเภท:**",
      inlineBlock (supportCategoryLabel input.category),
      lit "**ระดับ:**",
      inlineBlock (supportSeverityLabel input.severity),
      lit "**หน้าที่พบปัญหา:**",
      inlineBlock (path input),
      lit "**รายละเอียด:**",
      multilineBlock descBody,
      lit "**ข้อมูลเวอร์ชันระบบ:**",
      multilineBlock diagBody ]

/-- `assemble`. -/
def assemble (descBody diagBody : JsString) : JsString :=
  [10].intercalate (lines input descBody diagBody)

/-- `remaining`. -/
def remaining : ℤ := discordContentMax - (assemble input [] []).length

/-- `descBudget`. -/
def descBudget : ℤ := max 0 (min (description input).length (remaining input - 1))

/-- `descBody`. -/
def descBody : JsString := truncateText (description input) (descBudget input)

/-- `diagBody`. -/
def diagBody : JsString :=
  truncateText (diagnostics input) (remaining input - (descBody input).length)

/-- `buildDiscordPayload`. -/
def buildDiscordPayload : DiscordPayload where
  username := supportBotUsername
  content := assemble input (descBody input) (diagBody input)
  tts := false
  flags := 0
  embeds := []
  components := []
  pingsEveryone := (supportSeverityPing input.severity).everyone
  attachments := input.files.zipIdx.map fun f ↦ (f.2, f.1)

end EasyBook.Support
