import Yuviz.Campaigns.Originate
import Yuviz.Python.Csv
import Yuviz.Python.Json

/-!
# The contacts of a campaign

A contact list is uploaded as a CSV file, with a column for the number. A number
that is not blank is taken as it is, but for the spaces around it: every other
text can be uploaded for one (`uploaded_of_strip`).

What is written for it then dials the contact, and does no more, if the number
and the caller id have none of the characters that mean something to FreeSWITCH;
with a separator in them it does not (`onlyDials_uploaded_iff`).
-/

namespace Yuviz.Campaigns

open Python

section

variable [Runtime]

structure Contact where
  phoneNumber : String
  name : String
  deriving DecidableEq

inductive ContactsError
  | unicodeDecodeError
  | noPhoneNumber
  | csvError (e : Csv.Error)
  deriving DecidableEq

def ContactsError.message : ContactsError → String
  | unicodeDecodeError => "invalid utf-8"
  | noPhoneNumber => "CSV must have a 'phone_number' column"
  | csvError e => e.message

/-- `content.decode("utf-8-sig")`: the mark at the beginning is dropped. -/
def decodeUtf8Sig (content : ByteArray) : Option (List Char) :=
  (String.fromUTF8? content).map fun text =>
    match text.toList with
    | '\ufeff' :: s => s
    | s => s

/-- A row of `csv.DictReader`. The fields beyond the header are under no name. -/
def dictRow (fieldnames row : List String) : Dict String (Option String) :=
  (fieldnames.drop row.length).foldl (fun d name => d.set name none)
    (Dict.ofPairs (fieldnames.zip (row.map some)))

/-- `(row.get(col) or "").strip()`. -/
def cell (row : Dict String (Option String)) (col : String) : String :=
  stripStr ((row.get? col).join.getD "")

/-- The contact of a row, if there is a number in it. -/
def contact? (fieldnames : List String) (phoneCol : String) (nameCol : Option String)
    (row : List String) : Option Contact :=
  let row := dictRow fieldnames row
  if cell row phoneCol = "" then none
  else some { phoneNumber := cell row phoneCol, name := nameCol.elim "" (cell row) }

def parseContactsCsv (content : ByteArray) : Except ContactsError (List Contact) :=
  match decodeUtf8Sig content with
  | none => .error .unicodeDecodeError
  | some text =>
    match Csv.reader text with
    | ([], some e) => .error (.csvError e)
    | ([], none) => .error .noPhoneNumber
    | (fieldnames :: rows, e) =>
      let fieldMap := Dict.ofPairs (fieldnames.map fun f => (Runtime.lower (stripStr f), f))
      match fieldMap.get? "phone_number" with
      | none => .error .noPhoneNumber
      | some phoneCol =>
        match e with
        | some e => .error (.csvError e)
        | none =>
          .ok ((rows.filter (· ≠ [])).filterMap
            (contact? fieldnames phoneCol (fieldMap.get? "name")))

/-- The contact is in the list that is uploaded with the file. -/
def Uploaded (content : ByteArray) (contact : Contact) : Prop :=
  ∃ contacts, parseContactsCsv content = .ok contacts ∧ contact ∈ contacts

/-- A file with a number in quotes. -/
def quotedFile (number : List Char) : ByteArray :=
  (String.ofList ("phone_number\n".toList ++ '"' :: (Csv.escape number ++ ['"', '\n']))).toUTF8

omit [Runtime] in
theorem decodeUtf8Sig_toUTF8 {s : List Char} (h : s.head? ≠ some '\ufeff') :
    decodeUtf8Sig (String.ofList s).toUTF8 = some s := by
  have hdecode : String.fromUTF8? (String.ofList s).toUTF8 = some (String.ofList s) :=
    dif_pos (String.ofList s).isValidUTF8
  rw [decodeUtf8Sig, hdecode, Option.map_some, String.toList_ofList]
  split
  · simp at h
  · rfl

omit [Runtime] in
theorem reader_quotedFile {number : List Char} (hlen : number.length ≤ Csv.fieldSizeLimit) :
    Csv.reader ("phone_number\n".toList ++ '"' :: (Csv.escape number ++ ['"', '\n'])) =
      ([["phone_number"], [String.ofList number]], none) := by
  have hheader (s : List Char) : Csv.records {} ("phone_number\n".toList ++ s) =
      (["phone_number"] :: (Csv.records {} s).1, (Csv.records {} s).2) := rfl
  rw [Csv.reader, hheader, Csv.records_quoted hlen]
  rfl

/-- Every text that is not blank can be uploaded for a number, but for the spaces around it. -/
theorem uploaded_of_strip (hlower : Runtime.lower "phone_number" = "phone_number")
    {number : List Char} (hstrip : strip number = number) (hne : number ≠ [])
    (hlen : number.length ≤ Csv.fieldSizeLimit) :
    Uploaded (quotedFile number) { phoneNumber := String.ofList number, name := "" } := by
  have hname : stripStr "phone_number" = "phone_number" := by decide
  have hfieldMap : Dict.ofPairs (["phone_number"].map fun f => (Runtime.lower (stripStr f), f)) =
      [("phone_number", "phone_number")] := by
    rw [List.map_singleton, hname, hlower]
    rfl
  have hrow : dictRow ["phone_number"] [String.ofList number] =
      [("phone_number", some (String.ofList number))] := rfl
  have hcell : cell [("phone_number", some (String.ofList number))] "phone_number" =
      String.ofList number := by
    change stripStr (String.ofList number) = _
    rw [stripStr, String.toList_ofList, hstrip]
  have hnumber : String.ofList number ≠ "" := by
    intro h
    exact hne (by simpa using congrArg String.toList h)
  have hcontact : contact? ["phone_number"] "phone_number" none [String.ofList number] =
      some { phoneNumber := String.ofList number, name := "" } := by
    rw [contact?, hrow]
    exact if_neg (hcell.symm ▸ hnumber) |>.trans (congrArg (fun n => some (Contact.mk n "")) hcell)
  refine ⟨[{ phoneNumber := String.ofList number, name := "" }], ?_, List.mem_singleton_self _⟩
  unfold parseContactsCsv
  rw [quotedFile, decodeUtf8Sig_toUTF8 (by simp)]
  dsimp only
  rw [reader_quotedFile hlen]
  dsimp only
  rw [hfieldMap]
  change Except.ok (List.filterMap (contact? ["phone_number"] "phone_number" none)
    [[String.ofList number]]) = _
  rw [List.filterMap_cons, hcontact]
  rfl

/-- For a contact of a list that was uploaded, and a caller id (a campaign without one is
    skipped), what is written dials the contact and does no more, if its two dial strings
    have no quotes, escapes and expansions, and each is a single leg. And of those without
    quotes, escapes and expansions, no others do. -/
theorem onlyDials_uploaded_iff (freeswitch : FreeSwitch) {content : ByteArray}
    {contact : Contact} (_ : Uploaded content contact) (proxy : SipProxy) {callerId : String}
    (hcaller : callerId ≠ "") :
    (proxy.Unmarked contact.phoneNumber.toList callerId.toList →
      IsLeg (proxy.dialString contact.phoneNumber.toList) →
      IsLeg (proxy.dialString callerId.toList) →
      proxy.OnlyDials freeswitch contact.phoneNumber.toList callerId.toList) ∧
    (proxy.Unmarked contact.phoneNumber.toList callerId.toList →
      '$' ∉ proxy.dialString contact.phoneNumber.toList →
      proxy.OnlyDials freeswitch contact.phoneNumber.toList callerId.toList →
      IsLeg (proxy.dialString contact.phoneNumber.toList) ∧
        IsLeg (proxy.dialString callerId.toList)) := by
  have hne : callerId.toList ≠ [] := by simpa using hcaller
  exact ⟨fun hmarks => SipProxy.onlyDials freeswitch hmarks hne,
    fun hmarks hdollar h => h.isLeg hmarks hdollar hne⟩

end

/-! ### A number with a command in it -/

/-- The default proxy. -/
def defaultProxy : SipProxy := ⟨"192.168.0.116".toList, 5060⟩

/-- A number that ends the command, and begins another. -/
def injection : List Char := "1 &park()\n\nbgapi originate user/1001 &park()\n\n#".toList

theorem uploaded_ascii {number : List Char} (hstrip : strip number = number) (hne : number ≠ [])
    (hlen : number.length ≤ Csv.fieldSizeLimit) :
    @Uploaded Runtime.ascii (quotedFile number) ⟨String.ofList number, ""⟩ :=
  @uploaded_of_strip Runtime.ascii (by decide) number hstrip hne hlen

theorem onlyDials_uploaded_ordinary :
    defaultProxy.OnlyDials .plain "1001".toList "5006".toList :=
  (@onlyDials_uploaded_iff Runtime.ascii .plain (quotedFile "1001".toList) ⟨"1001", ""⟩
    (uploaded_ascii (by decide) (by decide) (by decide)) defaultProxy "5006"
    (by decide)).1 ⟨by decide, by decide⟩ (by decide) (by decide)

/-- Whatever FreeSWITCH makes of quotes, escapes and expansions. -/
theorem not_onlyDials_uploaded :
    ∃ content contact, @Uploaded Runtime.ascii content contact ∧
      ∀ freeswitch, ¬ defaultProxy.OnlyDials freeswitch contact.phoneNumber.toList
        "5006".toList := by
  refine ⟨quotedFile injection, ⟨String.ofList injection, ""⟩,
    uploaded_ascii (by decide) (by decide) (by decide),
    fun freeswitch h => ?_⟩
  have hmarks : defaultProxy.Unmarked (String.ofList injection).toList "5006".toList :=
    ⟨by decide, by decide⟩
  have hleg := (h.isLeg hmarks (by decide) (by decide)).1
  revert hleg
  decide

end Yuviz.Campaigns
