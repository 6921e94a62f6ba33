import Mathlib
import Yuviz.EventSocket
import Yuviz.Gateway.Telephony.EslFraming
import Yuviz.System

/-!
# The ESL client

The client sends one command at a time over its connection to the event socket,
and takes the next frame it receives for the reply. A command ends at an empty
line, and the client writes the strings it is given into its commands as they
are: with an empty line in one of them, FreeSWITCH takes two commands from what
was meant as one, and answers each. The second answer stays behind, and is taken
for the reply to the next command (`not_matched`). Otherwise every command is
taken as it was meant, and gets its own reply (`matched_iff`).

* FreeSWITCH takes the commands off what it is sent: it is any `EventSocket`.
* A call is one step: it writes a command, FreeSWITCH answers the commands it
  has been sent, and the client waits for the reply.
* The handshake of a new connection leaves nothing to read behind.
-/

namespace Yuviz.Gateway

open EslFraming

/-- What the client reads of its configuration. -/
structure EslConfig where
  enabled : Bool
  sipProxyHost : Bytes
  sipProxyPort : ℕ

/-- A call of the client, together with what FreeSWITCH took of it. -/
structure EslEntry where
  /-- The command of the call. -/
  command : Bytes
  /-- The commands FreeSWITCH took during the call, and its replies to them. -/
  taken : List (Bytes × Frame)
  /-- What it was sent and has not taken. -/
  unread : Bytes
  /-- The headers and the body that the client took for the reply, if any came. -/
  reply : Option (Bytes × Bytes)

/-- The client and the two directions of its connection. -/
structure EslClient where
  connected : Bool := false
  /-- `read_buf_`: bytes read past the last reply. -/
  readBuf : Bytes := []
  /-- Bytes sent that FreeSWITCH has not taken a command from. -/
  unread : Bytes := []
  /-- Bytes FreeSWITCH has sent that the client has not received. -/
  inFlight : Bytes := []
  log : List EslEntry := []

namespace EslClient

inductive Operation
  | hangup (uuid reason : Bytes)
  | transfer (callId destination reason : Bytes)
  | originateAsync (destination callerIdNumber : Bytes)
  | bridge (uuidA uuidB : Bytes)
  | stopAudioFork (uuid : Bytes)
  | hold (uuid : Bytes)
  | unhold (uuid : Bytes)
  deriving DecidableEq, Repr

/-- What an operation tells its caller. -/
inductive Result
  /-- `hangup` returns nothing. -/
  | done
  | accepted
  | originated (jobUuid : Bytes)
  | failed (error : Bytes)
  deriving DecidableEq, Repr

/-! ### The commands -/

def looksLikeSipUri (destination : Bytes) : Bool :=
  ascii "sip:" <+: destination ∨ ascii "sips:" <+: destination

/-- The guards of an operation: the client is enabled, and no string that is
    required is empty. -/
def guarded (cfg : EslConfig) (required : List (Bytes × String)) (command : Bytes) :
    Except Bytes Bytes :=
  if cfg.enabled = false then .error (ascii "esl_disabled")
  else
    match required.find? (·.1 = []) with
    | some (_, error) => .error (ascii error)
    | none => .ok command

def transferCommand (uuid destination : Bytes) : Bytes :=
  if looksLikeSipUri destination then
    ascii "api uuid_transfer " ++ (uuid ++ (ascii " 'bridge:sofia/external/" ++
      (destination ++ ascii "' inline")))
  else ascii "api uuid_transfer " ++ (uuid ++ (ascii " " ++ (destination ++ ascii " XML default")))

def originateCommand (cfg : EslConfig) (destination callerIdNumber : Bytes) : Bytes :=
  ascii "bgapi originate \x7borigination_caller_id_number=" ++ (callerIdNumber ++ (ascii "\x7d" ++
    if looksLikeSipUri destination then
      ascii "sofia/external/" ++ (destination ++ ascii " &park()")
    else
      ascii "sofia/external/sip:" ++ (destination ++ (ascii "@" ++ (cfg.sipProxyHost ++
        (ascii ":" ++ (ascii (toString cfg.sipProxyPort) ++ ascii " &park()")))))))

/-- The command an operation sends, or the error it returns without sending any.
    (`hangup` returns no error.) -/
def Operation.command (cfg : EslConfig) : Operation → Except Bytes Bytes
  | hangup uuid _ => guarded cfg [(uuid, "empty_uuid")] (ascii "api uuid_kill " ++ uuid)
  | transfer callId destination _ =>
    guarded cfg [(callId, "empty_uuid"), (destination, "empty_destination")]
      (transferCommand callId destination)
  | originateAsync destination callerIdNumber =>
    guarded cfg [(destination, "empty_destination")]
      (originateCommand cfg destination callerIdNumber)
  | bridge uuidA uuidB =>
    guarded cfg [(uuidA, "empty_uuid"), (uuidB, "empty_uuid")]
      (ascii "api uuid_bridge " ++ (uuidA ++ (ascii " " ++ uuidB)))
  | stopAudioFork uuid =>
    guarded cfg [(uuid, "empty_uuid")] (ascii "api uuid_audio_fork " ++ (uuid ++ ascii " stop"))
  | hold uuid => guarded cfg [(uuid, "empty_uuid")] (ascii "api uuid_hold " ++ uuid)
  | unhold uuid => guarded cfg [(uuid, "empty_uuid")] (ascii "api uuid_hold off " ++ uuid)

/-- `parse_job_uuid`. -/
def parseJobUuid (headers : Bytes) : Option Bytes :=
  let value (s : Bytes) : Option Bytes :=
    let uuid := (s.dropWhile (· = 32)).takeWhile (· ≠ lf)
    if uuid = [] then none else some uuid
  match rcut (ascii "\nJob-UUID:") headers with
  | some (_, rest) => value rest
  | none =>
    if ascii "Job-UUID:" <+: headers then value (headers.drop (ascii "Job-UUID:").length) else none

/-- What an operation makes of an error. -/
def Operation.failure (error : Bytes) : Operation → Result
  | hangup .. => .done
  | _ => .failed error

/-- What an operation makes of the reply to its command: of the body, if there is one. -/
def Operation.result (reply : Bytes × Bytes) : Operation → Result :=
  let text := if reply.2 = [] then reply.1 else reply.2
  fun
  | hangup .. => .done
  | originateAsync .. =>
    if ascii "+OK" <:+: text then (parseJobUuid text).elim (.failed text) .originated
    else .failed text
  | _ => if ascii "+OK" <:+: text then .accepted else .failed text

/-! ### The connection -/

/-- A carriage return, which counts for nothing before the end of a line. -/
def cr : UInt8 := 13

section

variable (socket : EventSocket UInt8 lf cr)

/-- What a call meets: whether the connection can be made and the command sent,
    the replies of FreeSWITCH to the commands it takes, and the polls of the
    client while it waits for its reply. -/
structure Environment where
  connects : Bool
  sends : Bool
  answer : ℕ → Frame
  polls : List Poll

/-- The bytes received. -/
def received (polls : List Poll) : Bytes :=
  polls.flatMap fun
    | .data bytes => bytes
    | _ => []

/-- `disconnect_locked`: the connection is gone, with all it carried. -/
def disconnectLocked (s : EslClient) : EslClient := { log := s.log }

/-- `send_command_locked`, and the reply if there is one. It is not enabled if the
    polls return bytes that FreeSWITCH has not sent. -/
def sendCommandLocked (s : EslClient) (command : Bytes) (env : Environment) :
    Option (EslClient × Option (Bytes × Bytes)) :=
  if s.connected = false ∧ env.connects = false then some (s, none)
  else
    let s := if s.connected then s else { log := s.log, connected := true }
    if env.sends = false then some (s.disconnectLocked, none)
    else
      let commands := socket.take (s.unread ++ (command ++ blankLine))
      let taken := commands.1.zipIdx.map fun (c, i) => (c, env.answer i)
      let inFlight := s.inFlight ++ (taken.map fun (_, f) => f.encode).flatten
      if received env.polls <+: inFlight then
        match readFrame readUntilBlankLine s.readBuf env.polls with
        | none => some ({ log := s.log ++ [⟨command, taken, commands.2, none⟩] }, none)
        | some (reply, readBuf, polls) => some
            ({ connected := true
               readBuf := readBuf
               unread := commands.2
               inFlight := received polls ++ inFlight.drop (received env.polls).length
               log := s.log ++ [⟨command, taken, commands.2, some reply⟩] }, some reply)
      else none

/-- A call of an operation, and what it tells its caller. -/
def call (cfg : EslConfig) (s : EslClient) (op : Operation) (env : Environment) :
    Option (EslClient × Result) :=
  match op.command cfg with
  | .error error => some (s, op.failure error)
  | .ok command => (sendCommandLocked socket s command env).map fun (s, reply) =>
    (s, reply.elim (op.failure (ascii "esl_unreachable")) op.result)

/-- The calls of a client, in any order. -/
def system (cfg : EslConfig) : System EslClient (Operation × Environment) where
  init := {}
  step s l := (call socket cfg s l.1 l.2).map Prod.fst

end

/-! ### One command a call -/

variable {cfg : EslConfig} {s s' : EslClient} {l : Operation × Environment} {command : Bytes}

/-- The strings of an operation have no empty line, which would end its command
    early: a string at the end of the command does not end in a line either. -/
def Operation.Whole (cfg : EslConfig) : Operation → Prop
  | hangup uuid _ => ¬HasEmptyLine lf cr (uuid ++ [lf])
  | transfer callId destination _ =>
    ¬HasEmptyLine lf cr callId ∧ ¬HasEmptyLine lf cr destination
  | originateAsync destination callerIdNumber =>
    ¬HasEmptyLine lf cr callerIdNumber ∧ ¬HasEmptyLine lf cr destination ∧
      (looksLikeSipUri destination = false → ¬HasEmptyLine lf cr cfg.sipProxyHost)
  | bridge uuidA uuidB => ¬HasEmptyLine lf cr uuidA ∧ ¬HasEmptyLine lf cr (uuidB ++ [lf])
  | stopAudioFork uuid => ¬HasEmptyLine lf cr uuid
  | hold uuid => ¬HasEmptyLine lf cr (uuid ++ [lf])
  | unhold uuid => ¬HasEmptyLine lf cr (uuid ++ [lf])

/-- A text without line ends at the beginning adds no empty line. -/
theorem hasEmptyLine_ascii {text : String} (h : lf ∉ ascii text ∧ cr ∉ ascii text) (s : Bytes) :
    HasEmptyLine lf cr (ascii text ++ s) ↔ HasEmptyLine lf cr s :=
  hasEmptyLine_append_of_forall fun _ hx =>
    ⟨ne_of_mem_of_not_mem hx h.1, ne_of_mem_of_not_mem hx h.2⟩

/-- And in the middle it keeps apart what is on its two sides. -/
theorem hasEmptyLine_append_ascii {text : String} (h : lf ∉ ascii text ∧ cr ∉ ascii text)
    (hne : ascii text ≠ []) (a s : Bytes) :
    HasEmptyLine lf cr (a ++ (ascii text ++ s)) ↔ HasEmptyLine lf cr a ∨ HasEmptyLine lf cr s := by
  rw [← hasEmptyLine_ascii h s]
  obtain ⟨x, t, ht⟩ := List.exists_cons_of_ne_nil hne
  rw [ht, List.mem_cons, List.mem_cons, not_or, not_or] at h
  have hlf : x ≠ lf := Ne.symm h.1.1
  have hcr : x ≠ cr := Ne.symm h.2.1
  rw [ht, List.cons_append, hasEmptyLine_append_cons hlf hcr, ← List.nil_append (x :: (t ++ s)),
    hasEmptyLine_append_cons hlf hcr, or_iff_right not_hasEmptyLine_nil]

theorem notMem_toString {x : UInt8} (hx : x.toNat < 48) (n : ℕ) : x ∉ ascii (toString n) := by
  intro h
  obtain ⟨c, hc, heq⟩ := List.mem_map.1 h
  have hdigit : c.isDigit := by
    rw [Nat.toString_eq_repr, Nat.repr, String.toList_ofList] at hc
    exact Nat.isDigit_of_mem_toDigits (by decide) (by decide) hc
  rw [Char.isDigit_iff_toNat] at hdigit
  have hnat : c.toNat % 256 = x.toNat := by simpa using congrArg UInt8.toNat heq
  have h0 : '0'.toNat = 48 := rfl
  have h9 : '9'.toNat = 57 := rfl
  omega

theorem guarded_ok {required : List (Bytes × String)} {c : Bytes}
    (h : guarded cfg required c = .ok command) : command = c := by
  rw [guarded] at h
  split_ifs at h
  split at h
  · cases h
  · exact (Except.ok.inj h).symm

/-- The strings of an operation decide whether its command ends early. -/
theorem Operation.whole_iff {op : Operation} (h : op.command cfg = .ok command) :
    op.Whole cfg ↔ ¬HasEmptyLine lf cr (command ++ [lf]) := by
  have hlf : ¬HasEmptyLine lf cr [lf] := not_hasEmptyLine_singleton
  rcases op with ⟨uuid, reason⟩ | ⟨callId, destination, reason⟩ | ⟨destination, callerIdNumber⟩ |
    ⟨uuidA, uuidB⟩ | ⟨uuid⟩ | ⟨uuid⟩ | ⟨uuid⟩ <;> obtain rfl := guarded_ok h
  case hangup | hold | unhold =>
    rw [Whole, List.append_assoc, hasEmptyLine_ascii (by decide)]
  case bridge =>
    rw [Whole, List.append_assoc, hasEmptyLine_ascii (by decide), List.append_assoc,
      List.append_assoc, hasEmptyLine_append_ascii (by decide) (by decide), not_or]
  case stopAudioFork =>
    rw [Whole, List.append_assoc, hasEmptyLine_ascii (by decide), List.append_assoc,
      hasEmptyLine_append_ascii (by decide) (by decide), or_iff_left hlf]
  case transfer =>
    rw [Whole, transferCommand]
    split_ifs
    all_goals
      simp only [List.append_assoc]
      rw [hasEmptyLine_ascii (by decide), hasEmptyLine_append_ascii (by decide) (by decide),
        hasEmptyLine_append_ascii (by decide) (by decide), or_iff_left hlf, not_or]
  case originateAsync =>
    rw [Whole, originateCommand]
    simp only [List.append_assoc]
    rw [hasEmptyLine_ascii (by decide), hasEmptyLine_append_ascii (by decide) (by decide), not_or]
    refine and_congr_right fun _ => ?_
    split_ifs with hsip
    · simp only [List.append_assoc]
      rw [hasEmptyLine_ascii (by decide), hasEmptyLine_append_ascii (by decide) (by decide),
        or_iff_left hlf]
      simp [hsip]
    · simp only [List.append_assoc]
      rw [hasEmptyLine_ascii (by decide), hasEmptyLine_append_ascii (by decide) (by decide),
        hasEmptyLine_append_ascii (by decide) (by decide),
        hasEmptyLine_ascii ⟨notMem_toString (by decide) _, notMem_toString (by decide) _⟩,
        hasEmptyLine_ascii (by decide), or_iff_left hlf, not_or]
      simp [hsip]

/-- A command begins with a word of its own. -/
theorem Operation.head?_command {op : Operation} (h : op.command cfg = .ok command) :
    ∃ c ∈ command.head?, c ≠ lf ∧ c ≠ cr := by
  have hbegins (text : String) (s : Bytes) (c : UInt8) (htext : (ascii text).head? = some c)
      (hc : c ≠ lf ∧ c ≠ cr) : ∃ c ∈ (ascii text ++ s).head?, c ≠ lf ∧ c ≠ cr := by
    refine ⟨c, ?_, hc⟩
    rw [List.head?_append, htext]
    rfl
  rcases op with ⟨uuid, reason⟩ | ⟨callId, destination, reason⟩ | ⟨destination, callerIdNumber⟩ |
    ⟨uuidA, uuidB⟩ | ⟨uuid⟩ | ⟨uuid⟩ | ⟨uuid⟩ <;> obtain rfl := guarded_ok h
  case hangup | hold | unhold | bridge | stopAudioFork =>
    exact hbegins _ _ 97 (by decide) (by decide)
  case transfer =>
    rw [transferCommand]
    split_ifs <;> exact hbegins _ _ 97 (by decide) (by decide)
  case originateAsync =>
    exact hbegins _ _ 98 (by decide) (by decide)

section

variable (socket : EventSocket UInt8 lf cr)

/-- FreeSWITCH takes the command of an operation as it was meant, and nothing else, exactly
    if its strings do not end it early. -/
theorem Operation.take_iff {op : Operation} (h : op.command cfg = .ok command) :
    socket.take (command ++ blankLine) = ([command], []) ↔ op.Whole cfg :=
  (socket.take_eq_iff (by decide) (head?_command h)).trans (whole_iff h).symm

/-! ### The replies of a run -/

/-- FreeSWITCH took the command of the call and nothing else, and if the client
    got a reply, then the one to this command. -/
def Matched (e : EslEntry) : Prop :=
  ∃ f : Frame, e.taken = [(e.command, f)] ∧ e.unread = [] ∧ ∀ r ∈ e.reply, r = (f.headers, f.body)

/-- Nothing is left of the calls so far, in either direction. -/
structure Tidy (s : EslClient) : Prop where
  readBuf : s.readBuf = []
  unread : s.unread = []
  inFlight : s.inFlight = []

theorem received_append (polls polls' : List Poll) :
    received (polls ++ polls') = received polls ++ received polls' :=
  List.flatMap_append

theorem received_data (chunks : List Bytes) : received (chunks.map .data) = chunks.flatten := by
  induction chunks with
  | nil => rfl
  | cons c chunks ih => exact congrArg (c ++ ·) ih

/-- The client takes the one frame there is, and all of it. -/
theorem readFrame_of_prefix {f : Frame} {polls polls' : List Poll} {reply : Bytes × Bytes}
    {readBuf : Bytes} (hpolls : received polls <+: f.encode)
    (h : readFrame readUntilBlankLine [] polls = some (reply, readBuf, polls')) :
    reply = (f.headers, f.body) ∧ readBuf = [] ∧ received polls' = [] ∧
      received polls = f.encode := by
  obtain ⟨headers, body⟩ := reply
  obtain ⟨chunks, rfl, heq, hheaders, hlen⟩ := readFrame_some h
  obtain ⟨t, ht⟩ := hpolls
  rw [received_append, received_data, ← List.nil_append chunks.flatten, heq, Frame.encode] at ht
  have hf : ¬blankLine <:+: f.headers ++ [lf] := fun hin =>
    f.no_blankLine (List.infix_cons_iff.2 (.inr hin))
  -- Both begin with headers up to their first blank line, so these are the same,
  have hcut := cut_append blankLine_ne_nil hheaders (body ++ readBuf ++ received polls' ++ t)
  rw [show headers ++ blankLine ++ (body ++ readBuf ++ received polls' ++ t) =
    f.headers ++ blankLine ++ f.body by simpa using ht, cut_append blankLine_ne_nil hf] at hcut
  obtain ⟨rfl, hbody⟩ := Prod.mk.inj (Option.some.inj hcut)
  -- and so are the bodies, as they are of the length that the headers announce.
  rw [parseContentLength_eq f.announces f.length_lt f.once] at hlen
  have hlen' := congrArg List.length hbody
  simp only [List.length_append] at hlen'
  obtain rfl : readBuf = [] := List.eq_nil_of_length_eq_zero (by omega)
  have hpolls' : received polls' = [] := List.eq_nil_of_length_eq_zero (by omega)
  obtain rfl : t = [] := List.eq_nil_of_length_eq_zero (by omega)
  rw [hpolls'] at hbody
  simp only [List.append_nil] at hbody
  refine ⟨by rw [hbody], rfl, hpolls', ?_⟩
  rw [received_append, received_data, ← List.nil_append chunks.flatten, heq, hpolls', Frame.encode,
    hbody]
  simp

/-- A command that does not end early gets its own reply, if any, and leaves
    nothing behind. -/
theorem sendCommandLocked_eq (hs : s.Tidy)
    (htake : socket.take (command ++ blankLine) = ([command], []))
    {env : Environment} {reply : Option (Bytes × Bytes)}
    (h : sendCommandLocked socket s command env = some (s', reply)) :
    s'.Tidy ∧ (s'.log = s.log ∨ ∃ e, s'.log = s.log ++ [e] ∧ Matched e) := by
  rw [sendCommandLocked] at h
  by_cases hconnect : s.connected = false ∧ env.connects = false
  · rw [if_pos hconnect] at h
    exact (Prod.mk.inj (Option.some.inj h)).1 ▸ ⟨hs, .inl rfl⟩
  rw [if_neg hconnect] at h
  dsimp only at h
  generalize hs₁ : (if s.connected = true then s else ({ log := s.log, connected := true })) = s₁
    at h
  have hlog : s₁.log = s.log := by
    rw [← hs₁]
    split_ifs <;> rfl
  obtain ⟨hreadBuf, hunread, hinFlight⟩ : s₁.Tidy := by
    rw [← hs₁]
    split_ifs
    · exact hs
    · exact ⟨rfl, rfl, rfl⟩
  by_cases hsends : env.sends = false
  · rw [if_pos hsends] at h
    rw [← (Prod.mk.inj (Option.some.inj h)).1]
    exact ⟨⟨rfl, rfl, rfl⟩, .inl hlog⟩
  rw [if_neg hsends, hunread, List.nil_append, htake, hreadBuf, hinFlight] at h
  simp only [List.zipIdx_cons, List.zipIdx_nil, List.map_cons, List.map_nil, List.flatten_cons,
    List.flatten_nil, List.append_nil, List.nil_append, hlog] at h
  split_ifs at h with hpolls
  rcases hread : readFrame readUntilBlankLine [] env.polls with _ | ⟨frame, readBuf, polls⟩
  · rw [hread] at h
    rw [← (Prod.mk.inj (Option.some.inj h)).1]
    exact ⟨⟨rfl, rfl, rfl⟩, .inr ⟨_, rfl, env.answer 0, rfl, rfl, nofun⟩⟩
  · rw [hread] at h
    obtain ⟨hreply, hbuf, hrest, hall⟩ := readFrame_of_prefix hpolls hread
    rw [← (Prod.mk.inj (Option.some.inj h)).1]
    refine ⟨⟨hbuf, rfl, ?_⟩, .inr ⟨_, rfl, env.answer 0, rfl, rfl, ?_⟩⟩
    · rw [hrest, hall, List.nil_append, List.drop_length]
    · intro r hr
      rw [← Option.some.inj hr, hreply]

private theorem length_lt_nil : ([] : List UInt8).length < 2 ^ 64 := by decide

/-- A reply without a body. -/
private def okReply : Frame where
  headers := ascii "Content-Type: command/reply\nReply-Text: +OK"
  body := []
  no_blankLine := by decide
  once := by decide
  announces := .none (by decide)
  length_lt := length_lt_nil

/-- A reply without a body, too. -/
private def errReply : Frame where
  headers := ascii "Content-Type: command/reply\nReply-Text: -ERR"
  body := []
  no_blankLine := by decide
  once := by decide
  announces := .none (by decide)
  length_lt := length_lt_nil

/-- FreeSWITCH cannot be reached. -/
private def unreachable : Environment := ⟨false, false, fun _ => okReply, []⟩

private theorem exec_unreachable (hs : s.connected = false) (ops : List Operation) :
    (system socket cfg).exec s (ops.map fun op => (op, unreachable)) = some s := by
  induction ops with
  | nil => rfl
  | cons op ops ih =>
    have hcall : (system socket cfg).step s (op, unreachable) = some s := by
      simp only [system, call]
      rcases op.command cfg with error | command
      · rfl
      · dsimp only
        rw [sendCommandLocked, if_pos ⟨hs, rfl⟩]
        rfl
    rw [List.map_cons, System.exec_cons, hcall]
    exact ih

/-- The calls of a client reach FreeSWITCH one command each, and get the reply to
    it, whatever the connection does, exactly if no string of an operation that
    sends a command ends the command early. -/
theorem matched_iff (cfg : EslConfig) (ops : List Operation) :
    (∀ calls s, calls.map Prod.fst = ops → (system socket cfg).exec {} calls = some s →
      ∀ e ∈ s.log, Matched e) ↔
    ∀ op ∈ ops, ∀ command, op.command cfg = .ok command → op.Whole cfg := by
  constructor
  · intro h op hop command hcommand
    obtain ⟨before, after, rfl⟩ := List.append_of_mem hop
    -- Only this operation reaches FreeSWITCH, and then the client gives up.
    let env : Environment := ⟨true, true, fun _ => okReply, []⟩
    let taken := socket.take (command ++ blankLine)
    let e : EslEntry := ⟨command, taken.1.zipIdx.map fun (c, i) => (c, env.answer i), taken.2, none⟩
    have hcall : (system socket cfg).step {} (op, env) = some { log := [e] } := by
      simp only [system, call, hcommand]
      rfl
    have hexec := h
      (before.map (fun op => (op, unreachable)) ++ (op, env) ::
        after.map fun op => (op, unreachable)) { log := [e] }
      (by simp [Function.comp_def])
      (by
        rw [System.exec_append, exec_unreachable socket rfl, Option.bind_some, System.exec_cons,
          hcall, Option.bind_some, exec_unreachable socket rfl])
    obtain ⟨f, htaken, hunread, -⟩ := hexec e (List.mem_singleton.2 rfl)
    rw [← Operation.take_iff socket hcommand]
    have hcommands : taken.1 = [command] := by
      have := congrArg (List.map Prod.fst) htaken
      rw [List.map_map] at this
      simpa [Function.comp_def] using this
    exact Prod.ext hcommands hunread
  · intro h calls s hcalls hexec
    have hinv : s.Tidy ∧ ∀ e ∈ s.log, Matched e := by
      refine System.exec_invariant (I := fun s : EslClient => s.Tidy ∧ ∀ e ∈ s.log, Matched e)
        ?_ ⟨⟨rfl, rfl, rfl⟩, by simp⟩ hexec
      rintro s ⟨op, env⟩ hl s' ⟨hs, hlog⟩ hstep
      simp only [system, call] at hstep
      rcases hcommand : op.command cfg with error | command
      · rw [hcommand] at hstep
        exact Option.some.inj hstep ▸ ⟨hs, hlog⟩
      · rw [hcommand, Option.map_map, Option.map_eq_some_iff] at hstep
        obtain ⟨⟨s₁, reply⟩, hstep, rfl⟩ := hstep
        have hop : op ∈ ops := hcalls ▸ List.mem_map_of_mem hl
        have htake := (Operation.take_iff socket hcommand).2 (h op hop command hcommand)
        obtain ⟨hs', heq | ⟨e, heq, he⟩⟩ := sendCommandLocked_eq socket hs htake hstep
        · exact ⟨hs', heq ▸ hlog⟩
        · refine ⟨hs', fun e' (he' : e' ∈ s₁.log) => ?_⟩
          rw [heq, List.mem_append, List.mem_singleton] at he'
          rcases he' with he' | rfl
          · exact hlog e' he'
          · exact he
    exact hinv.2

end

/-- A FreeSWITCH that takes all commands there are. -/
private def freeswitch : EventSocket UInt8 lf cr := .lines (by decide)

/-- A client that may send commands. -/
private def enabled : EslConfig := ⟨true, ascii "127.0.0.1", 5060⟩

/-- A hold, and a transfer to an extension. -/
theorem matched_hold : ∀ calls s,
    calls.map Prod.fst = [.hold (ascii "c"), .transfer (ascii "c") (ascii "1001") []] →
      (system freeswitch enabled).exec {} calls = some s → ∀ e ∈ s.log, Matched e := by
  have hplain (text : String) (h : lf ∉ ascii text ∧ cr ∉ ascii text) :
      ¬HasEmptyLine lf cr (ascii text) := by
    rw [← List.append_nil (ascii text), hasEmptyLine_ascii h]
    exact not_hasEmptyLine_nil
  have hend : ¬HasEmptyLine lf cr (ascii "c" ++ [lf]) := by
    rw [hasEmptyLine_ascii (by decide)]
    exact not_hasEmptyLine_singleton
  refine (matched_iff freeswitch enabled _).2 ?_
  rintro op hop command -
  simp only [List.mem_cons, List.not_mem_nil, or_false] at hop
  rcases hop with rfl | rfl
  · exact hend
  · exact ⟨hplain _ (by decide), hplain _ (by decide)⟩

/-- A hangup whose uuid has a second command in it, and a hold. -/
private def injection : List (Operation × Environment) :=
  [(.hangup (ascii "a\n\napi uuid_kill b") [],
      ⟨true, true, fun i => if i = 0 then okReply else errReply, [.data okReply.encode]⟩),
    (.hold (ascii "c"), ⟨true, true, fun _ => okReply, [.data errReply.encode]⟩)]

private theorem injection_isSome :
    ((system freeswitch enabled).exec {} injection).isSome = true := by
  decide

/-- The reply to the injected command is taken for that to the next one. -/
theorem not_matched :
    ∃ calls s, (system freeswitch enabled).exec {} calls = some s ∧ ¬∀ e ∈ s.log, Matched e := by
  refine ⟨injection, ((system freeswitch enabled).exec {} injection).get injection_isSome,
    (Option.some_get _).symm, fun h => ?_⟩
  have hlen :
      1 < (((system freeswitch enabled).exec {} injection).get injection_isSome).log.length := by
    decide
  obtain ⟨f, htaken, -, hreply⟩ := h _ (List.getElem_mem hlen)
  have hok : (((system freeswitch enabled).exec {} injection).get injection_isSome).log[1]?.map
      (fun e => e.taken.map fun x => x.2.headers) = some [okReply.headers] := by decide
  have herr : (((system freeswitch enabled).exec {} injection).get injection_isSome).log[1]?.bind
      EslEntry.reply = some (errReply.headers, []) := by decide
  rw [List.getElem?_eq_getElem hlen, Option.map_some, htaken] at hok
  rw [List.getElem?_eq_getElem hlen, Option.bind_some] at herr
  have hheaders : errReply.headers = f.headers := (Prod.mk.inj (hreply _ herr)).1
  have hheaders' : f.headers = okReply.headers := (List.cons.inj (Option.some.inj hok)).1
  exact absurd (hheaders.trans hheaders') (by decide)

end EslClient

end Yuviz.Gateway
