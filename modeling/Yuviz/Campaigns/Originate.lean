import Yuviz.EventSocket
import Yuviz.Python.Words
import Mathlib.Data.List.Basic
import Mathlib.Data.List.Infix
import Mathlib.Data.Nat.Digits.Defs

/-!
# The command that dials a contact

`originate_call` writes one command into the event socket of FreeSWITCH, a text
made of the number of the contact, the caller id of the campaign and the address
of the proxy.

What FreeSWITCH reads of it is not known but for some rules (`FreeSwitch`): a
command ends at an empty line, its arguments are separated by spaces; the first
argument of `originate` is a block of channel variables in braces and the legs
to dial, separated by commas, bars or `:_:`; the second is an application with
its argument. What quotes, escapes and expansions are read as is left open.

A text is read as it was meant if its fields have none of the characters with a
meaning in them (`SipProxy.onlyDials`). If they have no quotes, escapes and
expansions, then only if they have no separator either (`SipProxy.OnlyDials.isLeg`).
-/

namespace Yuviz.Campaigns

/-- `_SIP_PROXY_HOST` and `_SIP_PROXY_PORT`. -/
structure SipProxy where
  host : List Char
  port : ℕ

/-- The endpoint of a number at the proxy. -/
def SipProxy.dialString (proxy : SipProxy) (number : List Char) : List Char :=
  "sofia/external/sip:".toList ++ number ++ "@".toList ++ proxy.host ++ ":".toList ++
    (toString proxy.port).toList

/-- What `originate_call` writes once it is authenticated. -/
def SipProxy.originate (proxy : SipProxy) (phoneNumber callerId : List Char) : List Char :=
  "bgapi originate \x7borigination_caller_id_number=".toList ++ callerId ++ "\x7d".toList ++
    proxy.dialString phoneNumber ++ " &bridge(".toList ++ proxy.dialString callerId ++
      ")\n\n".toList

/-! ### The reader -/

def isLineEnd (c : Char) : Bool := c = '\n' || c = '\r'

/-- The separators of the legs of a dial string. -/
def isLegSeparator (c : Char) : Bool := c = ',' || c = '|'

/-- The separator of calls that are originated side by side. -/
def enterprise : List Char := ":_:".toList

/-- The text before the first separator of legs. -/
def firstLeg : List Char → List Char
  | [] => []
  | ':' :: '_' :: ':' :: _ => []
  | c :: s => if isLegSeparator c then [] else c :: firstLeg s

/-- It is taken for one argument and one leg. -/
structure IsLeg (s : List Char) : Prop where
  argument : ∀ c ∈ s, isLineEnd c = false ∧ c ≠ ' '
  leg : firstLeg s = s

/-- Quotes and escapes, and the end of a text in C. -/
def quotes : List Char := ['\'', '\\', '\x00']

/-- The braces of a block, the end of an argument, and the beginning of an expansion. -/
def marks : List Char := ['\x7b', '\x7d', ')', '$']

/-- It has none of these characters. -/
def Without (chars s : List Char) : Prop := ∀ c ∈ s, c ∉ chars

-- Looks at the characters of the text, not at all characters there are.
local instance decidableForallMem (s : List Char) (p : Char → Prop) [DecidablePred p] :
    Decidable (∀ c ∈ s, p c) :=
  List.decidableBAll p s

instance (chars s : List Char) : Decidable (Without chars s) :=
  inferInstanceAs (Decidable (∀ c ∈ s, _))

instance (s : List Char) : Decidable (IsLeg s) :=
  decidable_of_iff ((∀ c ∈ s, isLineEnd c = false ∧ c ≠ ' ') ∧ firstLeg s = s)
    ⟨fun h => ⟨h.1, h.2⟩, fun h => ⟨h.argument, h.leg⟩⟩

/-- A text that is no list with a separator of its own. -/
def IsWord (s : List Char) : Prop := ∃ c ∈ s.head?, c.isAlpha

instance (s : List Char) : Decidable (IsWord s) :=
  match s with
  | [] => isFalse fun ⟨_, h, _⟩ => by cases h
  | c :: _ => decidable_of_iff (c.isAlpha = true)
      ⟨fun h => ⟨c, rfl, h⟩, fun ⟨_, h, halpha⟩ => Option.some.inj h ▸ halpha⟩

structure EslCommand where
  vars : List (List Char × List Char)
  legs : List (List Char)
  app : List Char
  /-- The legs in the argument of the application. -/
  appLegs : List (List Char)
  /-- Further arguments: a dialplan, a context, a caller id, a timeout. -/
  more : List (List Char)
  deriving DecidableEq

/-- The command that the arguments of `originate` make, if the parts of them are read so. -/
def EslCommand.ofArguments (channelVars : List Char → List (List Char × List Char) × List Char)
    (legs : List Char → List (List Char))
    (application : List Char → Option (List Char × List Char)) :
    List (List Char) → Option EslCommand
  | dial :: app :: more => (application app).map fun (name, argument) =>
      { vars := (channelVars dial).1
        legs := legs (channelVars dial).2
        app := name
        appLegs := legs argument
        more := more }
  | _ => none

/-- What FreeSWITCH reads of the commands that it takes off its event socket. -/
structure FreeSwitch extends EventSocket Char '\n' '\r' where
  /-- What a command is read as. -/
  read : List Char → Option EslCommand
  arguments : List Char → List (List Char)
  /-- The variables in front of a dial string, and the text after them. -/
  channelVars : List Char → List (List Char × List Char) × List Char
  legs : List Char → List (List Char)
  /-- An application, and its argument. -/
  application : List Char → Option (List Char × List Char)
  /-- The first line of a command has its arguments. -/
  read_eq : ∀ line more, (∀ c ∈ line, isLineEnd c = false) → (∀ c ∈ more.head?, isLineEnd c) →
    read ("bgapi originate ".toList ++ line ++ more) =
      EslCommand.ofArguments channelVars legs application (arguments line)
  /-- Arguments are separated by spaces. The last of them may take all the rest. -/
  arguments_eq : ∀ line, Without quotes line → line.head? ≠ some '^' →
    (arguments line).take 3 = ((line.splitOnP (· = ' ')).filter (· ≠ [])).take 3
  /-- A block with one variable. -/
  channelVars_eq : ∀ name value rest, IsWord name → '=' ∉ name → value ≠ [] →
    Without (quotes ++ marks) (name ++ '=' :: value) → IsLeg (name ++ '=' :: value) →
    IsWord rest → channelVars ('\x7b' :: (name ++ '=' :: value ++ '\x7d' :: rest)) =
      ([(name, value)], rest)
  channelVars_suffix : ∀ s, (channelVars s).2 <:+ s
  /-- Without a separator, there is one leg. -/
  legs_eq : ∀ s, Without quotes s → IsWord s → firstLeg s = s → legs s = [s]
  /-- The first leg is the text before the first separator. -/
  legs_head? : ∀ s, Without quotes s → IsWord s → (legs s).head? = some (firstLeg s)
  legs_infix : ∀ s, Without quotes s → ∀ leg ∈ legs s, leg <:+: s
  application_eq : ∀ name argument, IsWord name → '(' ∉ name →
    Without (quotes ++ marks) (name ++ argument) →
    application ('&' :: (name ++ '(' :: (argument ++ [')']))) = some (name, argument)
  application_infix : ∀ s name argument, Without quotes s → '$' ∉ s →
    application s = some (name, argument) → argument <:+: s

/-- The command that dials the contact, and no more than that. -/
def SipProxy.intended (proxy : SipProxy) (phoneNumber callerId : List Char) : EslCommand where
  vars := [("origination_caller_id_number".toList, callerId)]
  legs := [proxy.dialString phoneNumber]
  app := "bridge".toList
  appLegs := [proxy.dialString callerId]
  more := []

/-- What is written is taken for one command, that which dials the contact. -/
def SipProxy.OnlyDials (freeswitch : FreeSwitch) (proxy : SipProxy)
    (phoneNumber callerId : List Char) : Prop :=
  ∃ command, freeswitch.take (proxy.originate phoneNumber callerId) = ([command], []) ∧
    freeswitch.read command = some (proxy.intended phoneNumber callerId)

/-- No quotes, escapes and expansions are in the fields. -/
structure SipProxy.Unmarked (proxy : SipProxy) (phoneNumber callerId : List Char) : Prop where
  phoneNumber : Without quotes (proxy.dialString phoneNumber)
  callerId : Without (quotes ++ marks) (proxy.dialString callerId)

/-! ### Legs and words -/

variable {s t a b : List Char} {chars chars' : List Char}

theorem enterprise_ne_nil : enterprise ≠ [] := by decide

/-- Separators are commas, bars and `:_:`. -/
theorem firstLeg_eq_self_iff :
    firstLeg s = s ↔ (∀ c ∈ s, isLegSeparator c = false) ∧ ¬ enterprise <:+: s := by
  induction s using firstLeg.induct with
  | case1 => simp [firstLeg, enterprise_ne_nil]
  | case2 s =>
    have hprefix : enterprise <:+: ':' :: '_' :: ':' :: s := (List.prefix_append _ s).isInfix
    simp [firstLeg, hprefix]
  | case3 c s hnot hsep =>
    rw [firstLeg.eq_3 c s hnot, if_pos hsep]
    simp [hsep]
  | case4 c s hnot hsep ih =>
    have hprefix : ¬ enterprise <+: c :: s := by
      rintro ⟨t, ht⟩
      obtain ⟨hc, hs⟩ := List.cons.inj ht
      exact hnot t hc.symm hs.symm
    rw [firstLeg.eq_3 c s hnot, if_neg hsep, List.cons.injEq, ih, List.infix_cons_iff,
      List.forall_mem_cons]
    simp [hsep, hprefix]

theorem Without.append (ha : Without chars a) (hb : Without chars b) : Without chars (a ++ b) :=
  fun c hc => (List.mem_append.1 hc).elim (ha c) (hb c)

theorem Without.of_subset (h : Without chars t) (hs : s ⊆ t) : Without chars s :=
  fun c hc => h c (hs hc)

theorem Without.mono (h : Without chars s) (hsub : chars' ⊆ chars) : Without chars' s :=
  fun c hc hmem => h c hc (hsub hmem)

theorem IsLeg.of_infix (ht : IsLeg t) (hs : s <:+: t) : IsLeg s := by
  have hleg := firstLeg_eq_self_iff.1 ht.leg
  refine ⟨fun c hc => ht.argument c (hs.subset hc), firstLeg_eq_self_iff.2 ⟨?_, ?_⟩⟩
  · exact fun c hc => hleg.1 c (hs.subset hc)
  · exact fun h => hleg.2 (h.trans hs)

/-- A leg that another text is put before, with an equals sign between. -/
theorem IsLeg.cons (ha : IsLeg a) (hb : IsLeg b) : IsLeg (a ++ '=' :: b) := by
  have hlega := firstLeg_eq_self_iff.1 ha.leg
  have hlegb := firstLeg_eq_self_iff.1 hb.leg
  refine ⟨?_, firstLeg_eq_self_iff.2 ⟨?_, ?_⟩⟩
  · simp only [List.forall_mem_append, List.forall_mem_cons]
    exact ⟨ha.argument, by decide, hb.argument⟩
  · simp only [List.forall_mem_append, List.forall_mem_cons]
    exact ⟨hlega.1, by decide, hlegb.1⟩
  · rw [infix_append_cons (by decide), not_or]
    exact ⟨hlega.2, hlegb.2⟩

/-! ### The words of the command -/

namespace SipProxy

variable {proxy : SipProxy} {phoneNumber callerId number : List Char}

/-- The dial string's word of the command. -/
def dialWord (proxy : SipProxy) (phoneNumber callerId : List Char) : List Char :=
  '\x7b' :: ("origination_caller_id_number".toList ++ '=' :: callerId ++
    '\x7d' :: proxy.dialString phoneNumber)

/-- The application's. -/
def appWord (proxy : SipProxy) (callerId : List Char) : List Char :=
  '&' :: ("bridge".toList ++ '(' :: (proxy.dialString callerId ++ [')']))

/-- The arguments that are written. -/
def line (proxy : SipProxy) (phoneNumber callerId : List Char) : List Char :=
  proxy.dialWord phoneNumber callerId ++ ' ' :: proxy.appWord callerId

theorem originate_eq (proxy : SipProxy) (phoneNumber callerId : List Char) :
    proxy.originate phoneNumber callerId =
      "bgapi originate ".toList ++ proxy.line phoneNumber callerId ++ ['\n', '\n'] := by
  have hbegin : "bgapi originate \x7borigination_caller_id_number=".toList =
      "bgapi originate ".toList ++ '\x7b' :: ("origination_caller_id_number".toList ++ ['=']) := by
    decide
  have hbrace : "\x7d".toList = ['\x7d'] := rfl
  have happ : " &bridge(".toList = ' ' :: '&' :: ("bridge".toList ++ ['(']) := by decide
  have hend : ")\n\n".toList = [')', '\n', '\n'] := by decide
  unfold originate line dialWord appWord
  simp only [hbegin, hbrace, happ, hend]
  generalize "bgapi originate ".toList = bgapi, "origination_caller_id_number".toList = name,
    "bridge".toList = bridge, proxy.dialString phoneNumber = a, proxy.dialString callerId = b
  simp

theorem infix_dialString (proxy : SipProxy) (number : List Char) :
    number <:+: proxy.dialString number := by
  unfold dialString
  generalize "sofia/external/sip:".toList = sofia, "@".toList = host, ":".toList = port
  exact ⟨sofia, host ++ proxy.host ++ port ++ (toString proxy.port).toList, by simp⟩

theorem isWord_dialString (proxy : SipProxy) (number : List Char) :
    IsWord (proxy.dialString number) := ⟨'s', rfl, by decide⟩

/-- What holds of the characters of the fields and of those around them holds of all. -/
theorem forall_mem_words {p : Char → Prop} (hphone : ∀ c ∈ proxy.dialString phoneNumber, p c)
    (hcaller : ∀ c ∈ proxy.dialString callerId, p c)
    (hname : ∀ c ∈ "origination_caller_id_number".toList, p c)
    (hbridge : ∀ c ∈ "bridge".toList, p c)
    (hmarks : ∀ c ∈ ['\x7b', '=', '\x7d', '&', '(', ')'], p c) :
    (∀ c ∈ proxy.dialWord phoneNumber callerId, p c) ∧ ∀ c ∈ proxy.appWord callerId, p c := by
  simp only [List.forall_mem_cons] at hmarks
  obtain ⟨hopen, heq, hclose, hand, hleft, hright, -⟩ := hmarks
  unfold dialWord appWord
  simp only [List.forall_mem_cons, List.forall_mem_append]
  refine ⟨⟨hopen, ⟨hname, heq, fun c hc => ?_⟩, hclose, hphone⟩,
    hand, hbridge, hleft, hcaller, hright, by simp⟩
  exact hcaller c ((infix_dialString proxy callerId).subset hc)

theorem forall_mem_line {p : Char → Prop} (hphone : ∀ c ∈ proxy.dialString phoneNumber, p c)
    (hcaller : ∀ c ∈ proxy.dialString callerId, p c)
    (hname : ∀ c ∈ "origination_caller_id_number".toList, p c)
    (hbridge : ∀ c ∈ "bridge".toList, p c)
    (hmarks : ∀ c ∈ ['\x7b', '=', '\x7d', '&', '(', ')', ' '], p c) :
    ∀ c ∈ proxy.line phoneNumber callerId, p c := by
  have hwords := forall_mem_words hphone hcaller hname hbridge fun c hc =>
    hmarks c (List.mem_append_left [' '] hc)
  rw [line, List.forall_mem_append, List.forall_mem_cons]
  exact ⟨hwords.1, hmarks ' ' (by decide), hwords.2⟩

theorem Unmarked.line (h : proxy.Unmarked phoneNumber callerId) :
    Without quotes (proxy.line phoneNumber callerId) :=
  forall_mem_line h.phoneNumber (h.callerId.mono (List.subset_append_left _ _))
    (by decide) (by decide) (by decide)

/-- The arguments that are read, if there is no space in a field. -/
theorem arguments_line (freeswitch : FreeSwitch) (hmarks : proxy.Unmarked phoneNumber callerId)
    (hphone : ' ' ∉ proxy.dialString phoneNumber) (hcaller : ' ' ∉ proxy.dialString callerId) :
    freeswitch.arguments (proxy.line phoneNumber callerId) =
      [proxy.dialWord phoneNumber callerId, proxy.appWord callerId] := by
  have hspace : (∀ c ∈ proxy.dialWord phoneNumber callerId, decide (c = ' ') = false) ∧
      ∀ c ∈ proxy.appWord callerId, decide (c = ' ') = false :=
    forall_mem_words (fun c hc => decide_eq_false (ne_of_mem_of_not_mem hc hphone))
      (fun c hc => decide_eq_false (ne_of_mem_of_not_mem hc hcaller))
      (by decide) (by decide) (by decide)
  have htake := freeswitch.arguments_eq _ hmarks.line (by simp [line, dialWord])
  rw [line, List.splitOnP_append_cons_of_forall_mem hspace.1 _ rfl,
    List.splitOnP_eq_singleton hspace.2] at htake
  have hwords : [proxy.dialWord phoneNumber callerId, proxy.appWord callerId].filter (· ≠ []) =
      [proxy.dialWord phoneNumber callerId, proxy.appWord callerId] := rfl
  rw [hwords] at htake
  -- There are no more than these two.
  have hlength := congrArg List.length htake
  simp only [List.length_take, List.length_cons, List.length_nil] at hlength
  rwa [List.take_of_length_le (by omega)] at htake

theorem application_appWord (freeswitch : FreeSwitch)
    (hmarks : proxy.Unmarked phoneNumber callerId) :
    freeswitch.application (proxy.appWord callerId) =
      some ("bridge".toList, proxy.dialString callerId) := by
  have hbridge : Without (quotes ++ marks) "bridge".toList := by decide
  exact freeswitch.application_eq _ _ (by decide) (by decide)
    (hbridge.append hmarks.callerId)

/-- The block of the dial string has the caller id for its one variable. -/
theorem channelVars_dialWord (freeswitch : FreeSwitch)
    (hmarks : proxy.Unmarked phoneNumber callerId) (hne : callerId ≠ [])
    (hcaller : IsLeg (proxy.dialString callerId)) :
    freeswitch.channelVars (proxy.dialWord phoneNumber callerId) =
      ([("origination_caller_id_number".toList, callerId)], proxy.dialString phoneNumber) := by
  have hname : Without (quotes ++ marks) "origination_caller_id_number".toList := by
    decide
  have hplain : Without (quotes ++ marks)
      ("origination_caller_id_number".toList ++ '=' :: callerId) := by
    refine hname.append fun c hc => ?_
    rcases List.mem_cons.1 hc with rfl | hc
    · decide
    · exact hmarks.callerId c ((infix_dialString proxy callerId).subset hc)
  have hleg : IsLeg "origination_caller_id_number".toList := by decide
  exact freeswitch.channelVars_eq _ _ _ (by decide) (by decide) hne hplain
    (hleg.cons (hcaller.of_infix (infix_dialString proxy callerId)))
    (isWord_dialString proxy phoneNumber)

theorem head?_line (text : List Char) :
    ∃ c ∈ ("bgapi originate ".toList ++ text).head?, c ≠ '\n' ∧ c ≠ '\r' := ⟨'b', rfl, by decide⟩

/-- Without line ends in the fields, one command is taken. -/
theorem take_originate (freeswitch : FreeSwitch)
    (hline : ∀ c ∈ proxy.line phoneNumber callerId, isLineEnd c = false) :
    freeswitch.take (proxy.originate phoneNumber callerId) =
      (["bgapi originate ".toList ++ proxy.line phoneNumber callerId], []) := by
  rw [originate_eq, freeswitch.take_eq_iff (by decide) (head?_line _),
    hasEmptyLine_append_of_forall]
  · exact not_hasEmptyLine_singleton
  · have hbgapi : ∀ c ∈ "bgapi originate ".toList, isLineEnd c = false := by decide
    intro c hc
    have hend := (List.mem_append.1 hc).elim (hbgapi c) (hline c)
    rwa [isLineEnd, Bool.or_eq_false_iff, decide_eq_false_iff_not, decide_eq_false_iff_not] at hend

/-- Of a command that is taken first, the arguments begin those that are written. -/
theorem exists_prefix_of_take {freeswitch : FreeSwitch} {command : List Char}
    (h : (freeswitch.take (proxy.originate phoneNumber callerId)).1.head? = some command) :
    ∃ args, command = "bgapi originate ".toList ++ args ∧
      args <+: proxy.line phoneNumber callerId := by
  rw [originate_eq] at h
  obtain ⟨b, hb⟩ := freeswitch.eq_of_head?_take (by decide) (head?_line _) h
  rw [List.append_assoc, List.append_eq_append_iff] at hb
  rcases hb with ⟨args, hcommand, hargs⟩ | ⟨rest, hbgapi, hrest⟩
  · refine ⟨args, hcommand, ?_⟩
    have hlength := congrArg List.length hargs
    simp only [List.length_append, List.length_cons, List.length_nil] at hlength
    exact List.prefix_of_prefix_length_le (hargs ▸ List.prefix_append args _)
      (List.prefix_append _ ['\n']) (by omega)
  · rcases rest with _ | ⟨c, rest⟩
    · exact ⟨[], by rw [hbgapi, List.append_nil, List.append_nil], List.nil_prefix⟩
    · -- No line ends before the arguments.
      have hnot : '\n' ∉ "bgapi originate ".toList := by decide
      refine absurd ?_ hnot
      rw [hbgapi, (List.cons.inj hrest).1]
      simp

/-- The command that dials the contact is taken for that, if its two dial strings are each
    for a single leg. -/
theorem onlyDials (freeswitch : FreeSwitch) (hmarks : proxy.Unmarked phoneNumber callerId)
    (hne : callerId ≠ []) (hphone : IsLeg (proxy.dialString phoneNumber))
    (hcaller : IsLeg (proxy.dialString callerId)) :
    proxy.OnlyDials freeswitch phoneNumber callerId := by
  have hline : ∀ c ∈ proxy.line phoneNumber callerId, isLineEnd c = false :=
    forall_mem_line (fun c hc => (hphone.argument c hc).1) (fun c hc => (hcaller.argument c hc).1)
      (by decide) (by decide) (by decide)
  refine ⟨_, take_originate freeswitch hline, ?_⟩
  have hread := freeswitch.read_eq (proxy.line phoneNumber callerId) [] hline (by simp)
  rw [List.append_nil] at hread
  rw [hread, arguments_line freeswitch hmarks (fun h => (hphone.argument _ h).2 rfl)
    (fun h => (hcaller.argument _ h).2 rfl), EslCommand.ofArguments,
    application_appWord freeswitch hmarks, channelVars_dialWord freeswitch hmarks hne hcaller,
    Option.map_some]
  dsimp only
  rw [freeswitch.legs_eq _ hmarks.phoneNumber (isWord_dialString _ _) hphone.leg,
    freeswitch.legs_eq _ (hmarks.callerId.mono (List.subset_append_left _ _))
      (isWord_dialString _ _) hcaller.leg]
  rfl

/-- What is read of a command with the arguments on its first line. -/
theorem eq_of_read {freeswitch : FreeSwitch} {text : List Char}
    (h : freeswitch.read ("bgapi originate ".toList ++ text) =
      some (proxy.intended phoneNumber callerId)) :
    ∃ dial app argument,
      freeswitch.arguments (text.takeWhile fun c => !isLineEnd c) = [dial, app] ∧
      freeswitch.application app = some ("bridge".toList, argument) ∧
      freeswitch.legs (freeswitch.channelVars dial).2 = [proxy.dialString phoneNumber] ∧
      freeswitch.legs argument = [proxy.dialString callerId] := by
  have hline : ∀ c ∈ text.takeWhile (fun c => !isLineEnd c), isLineEnd c = false := by
    intro c hc
    simpa using List.mem_takeWhile_imp hc
  have hmore : ∀ c ∈ (text.dropWhile fun c => !isLineEnd c).head?, isLineEnd c := by
    intro c hc
    have := List.head?_dropWhile_not (fun c => !isLineEnd c) text
    rw [Option.mem_def.1 hc] at this
    simpa using this
  have hread := freeswitch.read_eq _ _ hline hmore
  rw [List.append_assoc, List.takeWhile_append_dropWhile, h] at hread
  rcases hargs : freeswitch.arguments (text.takeWhile fun c => !isLineEnd c) with
    _ | ⟨dial, _ | ⟨app, more⟩⟩
  · rw [hargs] at hread
    cases hread
  · rw [hargs] at hread
    cases hread
  · rw [hargs] at hread
    obtain ⟨⟨name, argument⟩, happ, heq⟩ := Option.map_eq_some_iff.1 hread.symm
    simp only [intended, EslCommand.mk.injEq] at heq
    obtain ⟨-, hlegs, rfl, happLegs, rfl⟩ := heq
    exact ⟨dial, app, argument, rfl, happ, hlegs, happLegs⟩

/-- Its two dial strings are parts of the first line, and have no spaces. -/
theorem OnlyDials.argument {freeswitch : FreeSwitch} (hmarks : proxy.Unmarked phoneNumber callerId)
    (hdollar : '$' ∉ proxy.dialString phoneNumber)
    (h : proxy.OnlyDials freeswitch phoneNumber callerId) :
    (∀ c ∈ proxy.dialString phoneNumber, isLineEnd c = false ∧ c ≠ ' ') ∧
      ∀ c ∈ proxy.dialString callerId, isLineEnd c = false ∧ c ≠ ' ' := by
  obtain ⟨command, htake, hread⟩ := h
  obtain ⟨text, rfl, htext⟩ := exists_prefix_of_take (by rw [htake]; rfl)
  obtain ⟨dial, app, argument, hargs, happ, hlegs, happLegs⟩ := eq_of_read hread
  have hsub : text.takeWhile (fun c => !isLineEnd c) ⊆ proxy.line phoneNumber callerId :=
    fun c hc => htext.subset ((List.takeWhile_prefix _).subset hc)
  have hquotes := hmarks.line.of_subset hsub
  have hhead : (text.takeWhile fun c => !isLineEnd c).head? ≠ some '^' := by
    intro h
    obtain ⟨rest, hrest⟩ := (List.takeWhile_prefix fun c => !isLineEnd c).trans htext
    have hbegins := congrArg List.head? hrest
    rw [List.head?_append, h] at hbegins
    cases Option.some.inj hbegins
  -- What is read as a word has no spaces, nor line ends.
  have hword (word : List Char) (hmem : word ∈ [dial, app]) :
      word ⊆ proxy.line phoneNumber callerId ∧ ∀ c ∈ word, isLineEnd c = false ∧ c ≠ ' ' := by
    have htake := freeswitch.arguments_eq _ hquotes hhead
    rw [hargs, List.take_of_length_le (by simp)] at htake
    rw [htake] at hmem
    have hchars := Python.mem_and_of_mem_splitOnP (List.mem_filter.1 (List.mem_of_mem_take hmem)).1
    refine ⟨fun c hc => hsub (hchars c hc).1, fun c hc => ⟨?_, ?_⟩⟩
    · simpa using List.mem_takeWhile_imp (hchars c hc).1
    · simpa using (hchars c hc).2
  obtain ⟨hdialSub, hdial⟩ := hword dial (by simp)
  obtain ⟨happSub, happChars⟩ := hword app (by simp)
  have hrest := freeswitch.channelVars_suffix dial
  have hline : '$' ∉ proxy.line phoneNumber callerId := by
    have hall : ∀ c ∈ proxy.line phoneNumber callerId, c ≠ '$' :=
      forall_mem_line (fun c hc => ne_of_mem_of_not_mem hc hdollar)
        (fun c hc heq => hmarks.callerId c hc (by rw [heq]; decide))
        (by decide) (by decide) (by decide)
    exact fun h => hall '$' h rfl
  have hargument := freeswitch.application_infix _ _ _ (hmarks.line.of_subset happSub)
    (fun h => hline (happSub h)) happ
  constructor
  · intro c hc
    have hleg := freeswitch.legs_infix _
      (hmarks.line.of_subset (List.Subset.trans hrest.subset hdialSub)) _
      (hlegs ▸ List.mem_cons_self)
    exact hdial c (hrest.subset (hleg.subset hc))
  · intro c hc
    have hleg := freeswitch.legs_infix _
      (hmarks.line.of_subset (List.Subset.trans hargument.subset happSub)) _
      (happLegs ▸ List.mem_cons_self)
    exact happChars c (hargument.subset (hleg.subset hc))

/-- And only then. -/
theorem OnlyDials.isLeg {freeswitch : FreeSwitch} (hmarks : proxy.Unmarked phoneNumber callerId)
    (hdollar : '$' ∉ proxy.dialString phoneNumber) (hne : callerId ≠ [])
    (h : proxy.OnlyDials freeswitch phoneNumber callerId) :
    IsLeg (proxy.dialString phoneNumber) ∧ IsLeg (proxy.dialString callerId) := by
  obtain ⟨hphone, hcaller⟩ := h.argument hmarks hdollar
  obtain ⟨command, htake, hread⟩ := h
  -- So all that is written is one line, and its words are those that are read.
  have hline : ∀ c ∈ proxy.line phoneNumber callerId, isLineEnd c = false :=
    forall_mem_line (fun c hc => (hphone c hc).1) (fun c hc => (hcaller c hc).1)
      (by decide) (by decide) (by decide)
  rw [take_originate freeswitch hline] at htake
  obtain rfl := (List.cons.inj (Prod.mk.inj htake).1).1
  obtain ⟨dial, app, argument, hargs, happ, hlegs, happLegs⟩ := eq_of_read hread
  rw [List.takeWhile_eq_self_iff.2 (by simpa using hline),
    arguments_line freeswitch hmarks (fun h => (hphone _ h).2 rfl)
      (fun h => (hcaller _ h).2 rfl)] at hargs
  simp only [List.cons.injEq, and_true] at hargs
  obtain ⟨rfl, rfl⟩ := hargs
  rw [application_appWord freeswitch hmarks] at happ
  obtain ⟨-, rfl⟩ := Prod.mk.inj (Option.some.inj happ)
  -- The first leg is the only one, first of the application,
  have hfirst := freeswitch.legs_head? _ (hmarks.callerId.mono (List.subset_append_left _ _))
    (isWord_dialString proxy callerId)
  rw [happLegs] at hfirst
  have hcallerLeg : IsLeg (proxy.dialString callerId) :=
    ⟨hcaller, (Option.some.inj hfirst).symm⟩
  -- so that the block of variables is that of the caller id, and then of the dial string.
  rw [channelVars_dialWord freeswitch hmarks hne hcallerLeg] at hlegs
  have hfirst := freeswitch.legs_head? _ hmarks.phoneNumber (isWord_dialString proxy phoneNumber)
  rw [hlegs] at hfirst
  exact ⟨⟨hphone, (Option.some.inj hfirst).symm⟩, hcallerLeg⟩

end SipProxy

/-! ### A reader without quotes, escapes and expansions -/

namespace FreeSwitch

/-- The legs in a text, after the characters of the first one in `leg`. -/
def splitLegs : List Char → List Char → List (List Char)
  | leg, [] => [leg.reverse]
  | leg, ':' :: '_' :: ':' :: s => leg.reverse :: splitLegs [] s
  | leg, c :: s =>
    if isLegSeparator c then leg.reverse :: splitLegs [] s else splitLegs (c :: leg) s

/-- The variables of a block in braces that have a value. -/
def readVars (s : List Char) : List (List Char × List Char) × List Char :=
  if s.head? = some '\x7b' then
    match cut ['\x7d'] s.tail with
    | none => ([], s)
    | some (block, rest) =>
      (((block.splitOnP (· = ',')).filterMap (cut ['='])).filter (·.2 ≠ []), rest)
  else ([], s)

def readApplication (s : List Char) : Option (List Char × List Char) :=
  if s.head? = some '&' then
    match cut ['('] s.tail with
    | none => some (s.tail, [])
    | some (name, rest) => some (name, rest.takeWhile (· ≠ ')'))
  else none

def readArguments (line : List Char) : List (List Char) :=
  (line.splitOnP (· = ' ')).filter (· ≠ [])

def readCommand (command : List Char) : Option EslCommand :=
  let line := command.takeWhile fun c => !isLineEnd c
  if "bgapi originate ".toList <+: line then
    EslCommand.ofArguments readVars (splitLegs []) readApplication
      (readArguments (line.drop "bgapi originate ".toList.length))
  else none

variable {s leg : List Char}

theorem head?_splitLegs : (splitLegs leg s).head? = some (leg.reverse ++ firstLeg s) := by
  fun_induction splitLegs leg s with
  | case1 => simp [firstLeg]
  | case2 => simp [firstLeg]
  | case3 leg c s hnot hsep => simp [firstLeg.eq_3 c s hnot, hsep]
  | case4 leg c s hnot hsep ih => simp [firstLeg.eq_3 c s hnot, hsep, ih]

theorem splitLegs_eq (h : firstLeg s = s) : splitLegs leg s = [leg.reverse ++ s] := by
  fun_induction splitLegs leg s with
  | case1 => simp
  | case2 => simp [firstLeg] at h
  | case3 leg c s hnot hsep => simp [firstLeg.eq_3 c s hnot, hsep] at h
  | case4 leg c s hnot hsep ih =>
    rw [firstLeg.eq_3 c s hnot, if_neg hsep, List.cons.injEq] at h
    simpa using ih h.2

theorem infix_of_mem_splitLegs : ∀ x ∈ splitLegs leg s, x <:+: leg.reverse ++ s := by
  fun_induction splitLegs leg s with
  | case1 leg => simp
  | case2 leg s ih =>
    refine List.forall_mem_cons.2 ⟨(List.prefix_append _ _).isInfix, fun x hx => (ih x hx).trans ?_⟩
    exact ⟨leg.reverse ++ enterprise, [], by simp [enterprise]⟩
  | case3 leg c s hnot hsep ih =>
    refine List.forall_mem_cons.2 ⟨(List.prefix_append _ _).isInfix, fun x hx => (ih x hx).trans ?_⟩
    exact ⟨leg.reverse ++ [c], [], by simp⟩
  | case4 leg c s hnot hsep ih => simpa using ih

theorem readVars_suffix (s : List Char) : (readVars s).2 <:+ s := by
  unfold readVars
  split_ifs with hhead
  · split
    · exact List.suffix_rfl
    · next block rest hcut =>
      obtain ⟨hs, -⟩ := (cut_eq_some (List.cons_ne_nil _ _)).1 hcut
      exact (hs ▸ List.suffix_append _ _ : rest <:+ s.tail).trans (List.tail_suffix s)
  · exact List.suffix_rfl

theorem readApplication_infix {name argument : List Char}
    (h : readApplication s = some (name, argument)) : argument <:+: s := by
  unfold readApplication at h
  split_ifs at h with hhead
  split at h
  · obtain ⟨-, rfl⟩ := Prod.mk.inj (Option.some.inj h)
    exact List.nil_infix
  · next name' rest hcut =>
    obtain ⟨-, rfl⟩ := Prod.mk.inj (Option.some.inj h)
    obtain ⟨hs, -⟩ := (cut_eq_some (List.cons_ne_nil _ _)).1 hcut
    exact (List.takeWhile_prefix _).isInfix.trans
      ((hs ▸ List.suffix_append _ _ : rest <:+ s.tail).trans (List.tail_suffix s)).isInfix

theorem readVars_eq {name value rest : List Char} (heq : '=' ∉ name) (hvalue : value ≠ [])
    (hplain : Without (quotes ++ marks) (name ++ '=' :: value))
    (hleg : IsLeg (name ++ '=' :: value)) :
    readVars ('\x7b' :: (name ++ '=' :: value ++ '\x7d' :: rest)) = ([(name, value)], rest) := by
  have hbrace : '\x7d' ∉ name ++ '=' :: value := fun h => hplain _ h (by decide)
  have hcomma : ∀ c ∈ name ++ '=' :: value, decide (c = ',') = false := by
    intro c hc
    have hsep := (firstLeg_eq_self_iff.1 hleg.leg).1 c hc
    rw [isLegSeparator, Bool.or_eq_false_iff] at hsep
    exact hsep.1
  rw [readVars, if_pos List.head?_cons, List.tail_cons, cut_singleton hbrace]
  dsimp only
  rw [List.splitOnP_eq_singleton hcomma, List.filterMap_cons, cut_singleton heq]
  simp [hvalue]

theorem readApplication_eq {name argument : List Char} (hname : '(' ∉ name)
    (hplain : Without (quotes ++ marks) (name ++ argument)) :
    readApplication ('&' :: (name ++ '(' :: (argument ++ [')']))) = some (name, argument) := by
  have hright : ∀ c ∈ argument, decide (c ≠ ')') = true := by
    intro c hc
    refine decide_eq_true fun h => hplain c (List.mem_append_right _ hc) ?_
    rw [h]
    decide
  rw [readApplication, if_pos List.head?_cons, List.tail_cons, cut_singleton hname]
  dsimp only
  rw [List.takeWhile_append_of_pos hright]
  simp

/-- What is read if nothing is quoted, escaped or expanded. -/
def plain : FreeSwitch where
  toEventSocket := .lines (by decide)
  read := readCommand
  arguments := readArguments
  channelVars := readVars
  legs := splitLegs []
  application := readApplication
  read_eq line more hline hmore := by
    have hall : ∀ c ∈ "bgapi originate ".toList ++ line, (!isLineEnd c) = true := by
      have hbgapi : ∀ c ∈ "bgapi originate ".toList, (!isLineEnd c) = true := by decide
      exact List.forall_mem_append.2 ⟨hbgapi, by simpa using hline⟩
    have hnone : more.takeWhile (fun c => !isLineEnd c) = [] := by
      rcases more with _ | ⟨c, more⟩
      · rfl
      · rw [List.takeWhile_cons_of_neg]
        simpa using hmore c rfl
    rw [readCommand, List.takeWhile_append_of_pos hall, hnone, List.append_nil,
      if_pos (List.prefix_append _ _), List.drop_left]
  arguments_eq _ _ _ := rfl
  channelVars_eq _ _ _ _ heq hvalue hplain hleg _ := readVars_eq heq hvalue hplain hleg
  channelVars_suffix := readVars_suffix
  legs_eq _ _ _ h := splitLegs_eq h
  legs_head? _ _ _ := head?_splitLegs
  legs_infix _ _ := infix_of_mem_splitLegs
  application_eq _ _ _ hname hplain := readApplication_eq hname hplain
  application_infix _ _ _ _ _ h := readApplication_infix h

end FreeSwitch

end Yuviz.Campaigns
