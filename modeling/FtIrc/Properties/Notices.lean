import FtIrc.Library.Roster
import FtIrc.Properties.Grammar
import FtIrc.Effects.Emission

/-!
# Reading the lines of the server

What a client learns about the people in a channel from a line, when it parses the line with the
grammar of the server. Each relayed change is read as the notice of that change, and all other
lines are read as none.
-/

namespace FtIrc

/-- The nickname in front of `!`. -/
def originNick (msgPrefix : Bytes) : Bytes := msgPrefix.takeWhile (· ≠ byte '!')

/-- What a line says about the people in the channel of that name. -/
def Message.notice (name : Bytes) (msg : Message) : Option (Notice Bytes) :=
  let nick := originNick msg.msgPrefix
  if msg.command = ascii "QUIT" then some (.left nick)
  else if msg.command = ascii "NICK" then some (.renamed nick (msg.parameter.headD []))
  else if msg.parameter.headD [] ≠ name then none
  else if msg.command = ascii "JOIN" then some (.joined nick)
  else if msg.command = ascii "PART" then some (.left nick)
  else if msg.command = ascii "KICK" then some (.left (msg.parameter.getD 1 []))
  else if msg.command = ascii "MODE" then
    if msg.parameter.getD 1 [] = ascii "+o" then some (.raised (msg.parameter.getD 2 []))
    else if msg.parameter.getD 1 [] = ascii "-o" then some (.lowered (msg.parameter.getD 2 []))
    else none
  else none

def noticeOf (name line : Bytes) : Option (Notice Bytes) :=
  (spliter line).bind (Message.notice name)

/-- The commands that a notice can have. -/
def noticeCommands : List Bytes :=
  [ascii "QUIT", ascii "NICK", ascii "JOIN", ascii "PART", ascii "KICK", ascii "MODE"]

theorem notice_eq_none {name : Bytes} {msg : Message} (h : msg.command ∉ noticeCommands) :
    msg.notice name = none := by
  simp only [noticeCommands, List.mem_cons, List.not_mem_nil, or_false, not_or] at h
  obtain ⟨hquit, hnick, hjoin, hpart, hkick, hmode⟩ := h
  simp [Message.notice, hquit, hnick, hjoin, hpart, hkick, hmode]

/-- A line that reaches the client as it was given to `sendReply`, and without line ends inside. -/
structure Readable (line : Bytes) : Prop where
  clean : Clean line
  length : line.length ≤ 510

theorem outputLine_readable {line : Bytes} (h : Readable line) : outputLine line = line := by
  unfold outputLine
  exact if_pos h.length

/-! ## Scanning -/

theorem spliter_readable {line : Bytes} (h : Readable line) (hne : line ≠ []) :
    spliter line = scan line := by
  have h0 : (0 : Byte) ∉ line := fun hin => (h.clean 0 hin).1 rfl
  have h13 : (13 : Byte) ∉ line := fun hin => (h.clean 13 hin).2.2 rfl
  have hlast : 13 ∉ line.dropLast := fun hin => h13 (List.mem_of_mem_dropLast hin)
  have hcr : withoutCr line = line := by
    unfold withoutCr
    exact if_neg fun hin => h13 (List.mem_of_getLast? hin)
  rw [spliter_eq_scan hne h.length, if_neg (by simp [h0, hlast]), hcr]

/-- A word that stands as a command or as a parameter in front of others. -/
structure IsItem (w : Bytes) : Prop where
  nonempty : w ≠ []
  noSpace : byte ' ' ∉ w
  noColon : w.head? ≠ some (byte ':')

theorem IsItem.head {w : Bytes} (h : IsItem w) : w.head? ≠ some (byte ' ') :=
  fun hin => h.noSpace (List.mem_of_head? hin)

theorem stops_cons (s : Bytes) : Stops (byte ' ' :: s) := by
  intro b hb
  simpa using hb.symm

theorem stops_nil : Stops [] := by
  intro b hb
  simp at hb

theorem skipSpaces_cons (s : Bytes) : skipSpaces (byte ' ' :: s) = skipSpaces s := by
  have hblank : Blank [byte ' '] := fun b hb => List.mem_singleton.mp hb
  exact skipSpaces_append hblank

theorem IsItem.skipSpaces {w : Bytes} (h : IsItem w) (s : Bytes) :
    FtIrc.skipSpaces (w ++ s) = w ++ s := skipSpaces_of_head h.nonempty h.head

section scan

variable {src cmd w tail : Bytes}

theorem splitCommand_item (hcmd : IsItem cmd) (htail : Stops tail) (existPrefix : Bool)
    (msgPrefix : Bytes) : splitCommand existPrefix msgPrefix (cmd ++ tail) =
      ⟨existPrefix, msgPrefix, cmd.map toupper, splitParameters 14 (skipSpaces tail)⟩ := by
  unfold splitCommand
  rw [token_stops hcmd.noSpace htail, afterToken_stops hcmd.noSpace htail]

/-- A line with an origin. -/
theorem scan_origin (hsrc : src ≠ []) (hspace : byte ' ' ∉ src) (hcmd : IsItem cmd)
    (htail : Stops tail) : scan (ascii ":" ++ src ++ ascii " " ++ (cmd ++ tail)) =
      some ⟨true, src, cmd.map toupper, splitParameters 14 (skipSpaces tail)⟩ := by
  have hline : ascii ":" ++ src ++ ascii " " ++ (cmd ++ tail) =
      byte ':' :: (src ++ byte ' ' :: (cmd ++ tail)) := by
    simp only [List.append_assoc]
    rfl
  have hopen : ∀ s, skipSpaces (byte ':' :: s) = byte ':' :: s := fun s =>
    skipSpaces_of_head (s := [byte ':']) (by simp) (by decide)
  obtain ⟨b, body, hbody⟩ := List.exists_cons_of_ne_nil
    (show cmd ++ tail ≠ [] by simp [hcmd.nonempty])
  have hskip : skipSpaces (byte ' ' :: (cmd ++ tail)) = b :: body := by
    rw [skipSpaces_cons, hcmd.skipSpaces, hbody]
  unfold scan
  rw [hline, hopen]
  simp only [if_true, token_stops hspace (stops_cons _), afterToken_stops hspace (stops_cons _),
    hskip]
  rw [← hbody, splitCommand_item hcmd htail]
  simp [hsrc]

/-- A line of the server without an origin. -/
theorem scan_plain (hcmd : IsItem cmd) (htail : Stops tail) :
    scan (cmd ++ tail) =
      some ⟨false, [], cmd.map toupper, splitParameters 14 (skipSpaces tail)⟩ := by
  obtain ⟨b, body, hbody⟩ := List.exists_cons_of_ne_nil hcmd.nonempty
  have hcolon : b ≠ byte ':' := by simpa [hbody] using hcmd.noColon
  have hmessage := splitCommand_item hcmd htail false []
  unfold scan
  rw [hcmd.skipSpaces]
  rw [hbody, List.cons_append] at hmessage ⊢
  simp only [hcolon, if_false, hmessage]

theorem splitParameters_item (hw : IsItem w) (htail : Stops tail) (left : Nat) :
    splitParameters (left + 1) (w ++ tail) = w :: splitParameters left (skipSpaces tail) := by
  have hafter := afterToken_stops hw.noSpace htail
  have htoken := token_stops hw.noSpace htail
  obtain ⟨b, text, htext⟩ := List.exists_cons_of_ne_nil hw.nonempty
  have hb : b ≠ byte ':' := by simpa [htext] using hw.noColon
  rw [htext, List.cons_append] at hafter htoken ⊢
  rw [splitParameters, if_neg hb, hafter, htoken]
  split_ifs with hnil
  · rw [hnil, List.append_nil]
    cases left <;> rfl
  · rfl

theorem splitParameters_colon (text : Bytes) (left : Nat) :
    splitParameters left (byte ':' :: text) = [text] := by
  cases left <;> simp [splitParameters]

end scan

/-! ## Names as words -/

theorem isItem_channelName {name : Bytes} (h : isValidChannelName name = true) : IsItem name := by
  cases name with
  | nil => simp [isValidChannelName] at h
  | cons first rest =>
    simp only [isValidChannelName, Bool.and_eq_true, Bool.not_eq_true'] at h
    obtain ⟨⟨⟨⟨-, hfirst⟩, hspace⟩, -⟩, -⟩ := h
    constructor
    · exact List.cons_ne_nil _ _
    · simpa using hspace
    · intro hcolon
      obtain rfl : first = byte ':' := by simpa using hcolon
      revert hfirst
      decide

theorem isItem_nickname {n : Bytes} (h : isValidNickname n = true) : IsItem n := by
  refine ⟨?_, isValidNickname_no_space h, ?_⟩
  · rintro rfl
    simp [isValidNickname] at h
  · intro hcolon
    cases n with
    | nil => simp at hcolon
    | cons first rest =>
      obtain rfl : first = byte ':' := by simpa using hcolon
      simp only [isValidNickname, Bool.and_eq_true] at h
      exact absurd h.1.2 (by decide)

theorem isValidNickname_no_bang {n : Bytes} (h : isValidNickname n = true) : byte '!' ∉ n := by
  cases n with
  | nil => simp
  | cons first rest =>
    simp only [isValidNickname, Bool.and_eq_true, List.all_eq_true] at h
    intro hin
    rcases List.mem_cons.mp hin with heq | hin
    · have hfirst := h.1.2
      rw [← heq] at hfirst
      exact absurd hfirst (by decide)
    · exact absurd (h.2 _ hin) (by decide)

theorem inetNtop_no_space (addr : Ipv4) : byte ' ' ∉ inetNtop addr := by
  have hdecimal : ∀ n, byte ' ' ∉ decimal n := fun n h => absurd (decimal_digits n _ h) (by decide)
  have hdot : byte ' ' ∉ ascii "." := by decide
  simp only [inetNtop, List.mem_append, not_or]
  exact ⟨⟨⟨⟨⟨⟨hdecimal _, hdot⟩, hdecimal _⟩, hdot⟩, hdecimal _⟩, hdot⟩, hdecimal _⟩

/-- The source of the lines that pass on what the client does. -/
def Client.mask (c : Client) : Bytes :=
  c.nickname ++ ascii "!" ++ c.username ++ ascii "@" ++ c.ip

/-- A client whose mask is one word. -/
structure Client.Masked (c : Client) : Prop where
  nickname : isValidNickname c.nickname = true
  username : byte ' ' ∉ c.username
  ip : byte ' ' ∉ c.ip

section relayed

variable {c : Client} {cmd rest name : Bytes}

theorem Client.mask_ne_nil (c : Client) : c.mask ≠ [] := by
  have hbang : byte '!' ∈ c.mask := by
    have hin : byte '!' ∈ ascii "!" := by decide
    simp [Client.mask, hin]
  exact List.ne_nil_of_mem hbang

theorem Client.Masked.noSpace (h : c.Masked) : byte ' ' ∉ c.mask := by
  have hnick := isValidNickname_no_space h.nickname
  have hbang : byte ' ' ∉ ascii "!" := by decide
  have hat : byte ' ' ∉ ascii "@" := by decide
  simp only [Client.mask, List.mem_append, not_or]
  exact ⟨⟨⟨⟨hnick, hbang⟩, h.username⟩, hat⟩, h.ip⟩

theorem Client.Masked.originNick (h : c.Masked) : FtIrc.originNick c.mask = c.nickname := by
  have hform : c.mask = c.nickname ++ byte '!' :: (c.username ++ ascii "@" ++ c.ip) := by
    simp only [Client.mask, List.append_assoc]
    rfl
  have hbang := isValidNickname_no_bang h.nickname
  rw [hform, FtIrc.originNick, List.takeWhile_append_of_pos]
  · simp
  · intro b hb
    have hne : b ≠ byte '!' := fun heq => hbang (heq ▸ hb)
    simpa using hne

theorem makeCommand_mask (c : Client) (cmd : Bytes) (hrest : rest ≠ []) :
    makeCommand c cmd rest = ascii ":" ++ c.mask ++ ascii " " ++ (cmd ++ byte ' ' :: rest) := by
  unfold makeCommand
  rw [if_neg (by simpa using hrest)]
  simp only [Client.mask, List.append_assoc]
  rfl

/-- How a relayed line is read. -/
theorem spliter_makeCommand (hc : c.Masked) (hcmd : IsItem cmd) (hrest : rest ≠ [])
    (hread : Readable (makeCommand c cmd rest)) : spliter (makeCommand c cmd rest) =
      some ⟨true, c.mask, cmd.map toupper, splitParameters 14 (skipSpaces rest)⟩ := by
  have hform := makeCommand_mask c cmd hrest
  rw [spliter_readable hread (by rw [hform]; simp), hform,
    scan_origin c.mask_ne_nil hc.noSpace hcmd (stops_cons _), skipSpaces_cons]

/-! ## The relayed changes -/

theorem notice_join (m : Bytes) (ps : List Bytes) :
    Message.notice name ⟨true, m, ascii "JOIN", ps⟩ =
      if ps.headD [] ≠ name then none else some (.joined (originNick m)) := rfl

theorem notice_part (m : Bytes) (ps : List Bytes) :
    Message.notice name ⟨true, m, ascii "PART", ps⟩ =
      if ps.headD [] ≠ name then none else some (.left (originNick m)) := rfl

theorem notice_kick (m : Bytes) (ps : List Bytes) :
    Message.notice name ⟨true, m, ascii "KICK", ps⟩ =
      if ps.headD [] ≠ name then none else some (.left (ps.getD 1 [])) := rfl

theorem notice_mode (m : Bytes) (ps : List Bytes) :
    Message.notice name ⟨true, m, ascii "MODE", ps⟩ =
      if ps.headD [] ≠ name then none
      else if ps.getD 1 [] = ascii "+o" then some (.raised (ps.getD 2 []))
      else if ps.getD 1 [] = ascii "-o" then some (.lowered (ps.getD 2 []))
      else none := rfl

end relayed

section lines

variable {c d : Client} {name other reason : Bytes}

theorem skipSpaces_item (h : IsItem other) : skipSpaces other = other := by
  simpa using h.skipSpaces []

theorem skipSpaces_colon (text : Bytes) : skipSpaces (ascii " :" ++ text) = byte ':' :: text := by
  have hform : ascii " :" ++ text = byte ' ' :: (byte ':' :: text) := rfl
  have hcolon : skipSpaces (byte ':' :: text) = byte ':' :: text :=
    skipSpaces_of_head (s := [byte ':']) (by simp) (by decide)
  rw [hform, skipSpaces_cons, hcolon]

/-- One parameter and nothing else. -/
theorem parameters_one (h : IsItem other) (left : Nat) :
    splitParameters (left + 1) (skipSpaces other) = [other] := by
  have hone := splitParameters_item h stops_nil left
  have hnil : splitParameters left (skipSpaces []) = [] := by cases left <;> rfl
  rw [List.append_nil, hnil] at hone
  rw [skipSpaces_item h, hone]

/-- A parameter and a text behind a colon. -/
theorem parameters_text (h : IsItem other) (left : Nat) (text : Bytes) :
    splitParameters (left + 1) (skipSpaces (other ++ ascii " :" ++ text)) = [other, text] := by
  have hstops : Stops (ascii " :" ++ text) := stops_cons (byte ':' :: text)
  rw [List.append_assoc, h.skipSpaces, splitParameters_item h hstops, skipSpaces_colon,
    splitParameters_colon]

/-- A parameter in front of further words. -/
theorem parameters_item (h : IsItem other) (left : Nat) (rest : Bytes) :
    splitParameters (left + 1) (skipSpaces (other ++ byte ' ' :: rest)) =
      other :: splitParameters left (skipSpaces rest) := by
  rw [h.skipSpaces, splitParameters_item h (stops_cons _), skipSpaces_cons]

theorem noticeOf_some {line : Bytes} {msg : Message} (h : spliter line = some msg) :
    noticeOf name line = msg.notice name := by
  rw [noticeOf, h]
  rfl

theorem noticeOf_join (hc : c.Masked) (ho : IsItem other)
    (hread : Readable (joinNotice c other)) :
    noticeOf name (joinNotice c other) =
      if other ≠ name then none else some (.joined c.nickname) := by
  have hcmd : IsItem (ascii "JOIN") := ⟨by decide, by decide, by decide⟩
  have hmsg := spliter_makeCommand hc hcmd ho.nonempty hread
  rw [parameters_one ho] at hmsg
  rw [joinNotice, noticeOf_some hmsg, ← hc.originNick]
  exact notice_join _ _

theorem noticeOf_part (hc : c.Masked) (ho : IsItem other)
    (hread : Readable (partNotice c other reason)) :
    noticeOf name (partNotice c other reason) =
      if other ≠ name then none else some (.left c.nickname) := by
  have hcmd : IsItem (ascii "PART") := ⟨by decide, by decide, by decide⟩
  have hmsg := spliter_makeCommand hc hcmd (by simp [ho.nonempty]) hread
  rw [parameters_text ho] at hmsg
  rw [partNotice, noticeOf_some hmsg, ← hc.originNick]
  exact notice_part _ _

theorem kickNotice_eq (c d : Client) (name reason : Bytes) :
    kickNotice c d name reason =
      makeCommand c (ascii "KICK") (name ++ byte ' ' :: (d.nickname ++ ascii " :" ++ reason)) := by
  have hspace : ascii " " ≠ [] := by decide
  have hrest : name ++ ascii " " ++ d.nickname ≠ [] := by simp [hspace]
  have hrest' : name ++ byte ' ' :: (d.nickname ++ ascii " :" ++ reason) ≠ [] := by simp
  rw [kickNotice, makeCommand_mask c _ hrest, makeCommand_mask c _ hrest']
  simp only [List.append_assoc, List.cons_append]
  rfl

theorem noticeOf_kick (hc : c.Masked) (ho : IsItem other) (hd : IsItem d.nickname)
    (hread : Readable (kickNotice c d other reason)) :
    noticeOf name (kickNotice c d other reason) =
      if other ≠ name then none else some (.left d.nickname) := by
  rw [kickNotice_eq] at hread ⊢
  have hcmd : IsItem (ascii "KICK") := ⟨by decide, by decide, by decide⟩
  have hmsg := spliter_makeCommand hc hcmd (by simp) hread
  rw [parameters_item ho, parameters_text hd] at hmsg
  rw [noticeOf_some hmsg]
  exact notice_kick _ _

theorem colon_ne_nil (text : Bytes) : ascii ":" ++ text ≠ [] := List.cons_ne_nil _ _

theorem noticeOf_quit (hc : c.Masked)
    (hread : Readable (makeCommand c (ascii "QUIT") (ascii ":" ++ reason))) :
    noticeOf name (makeCommand c (ascii "QUIT") (ascii ":" ++ reason)) =
      some (.left c.nickname) := by
  have hcmd : IsItem (ascii "QUIT") := ⟨by decide, by decide, by decide⟩
  have hmsg := spliter_makeCommand hc hcmd (colon_ne_nil _) hread
  rw [noticeOf_some hmsg, ← hc.originNick]
  rfl

theorem nickNotice_eq (c : Client) (n : Bytes) :
    nickNotice c.nickname n c.username c.ip = makeCommand c (ascii "NICK") (ascii ":" ++ n) := by
  rw [makeCommand_mask c _ (colon_ne_nil _), nickNotice, Client.mask]
  simp only [List.append_assoc]
  rfl

theorem noticeOf_nick {n : Bytes} (hc : c.Masked)
    (hread : Readable (nickNotice c.nickname n c.username c.ip)) :
    noticeOf name (nickNotice c.nickname n c.username c.ip) =
      some (.renamed c.nickname n) := by
  rw [nickNotice_eq] at hread ⊢
  have hcmd : IsItem (ascii "NICK") := ⟨by decide, by decide, by decide⟩
  have hmsg := spliter_makeCommand hc hcmd (colon_ne_nil _) hread
  have hskip : skipSpaces (ascii ":" ++ n) = byte ':' :: n :=
    skipSpaces_of_head (s := [byte ':']) (by simp) (by decide)
  rw [hskip, splitParameters_colon] at hmsg
  rw [noticeOf_some hmsg, ← hc.originNick]
  rfl

theorem noticeOf_operator (hc : c.Masked) (ho : IsItem other) (hd : IsItem d.nickname)
    (enable : Bool) (hread : Readable (operatorNotice c d other enable)) :
    noticeOf name (operatorNotice c d other enable) =
      if other ≠ name then none
      else some (if enable then .raised d.nickname else .lowered d.nickname) := by
  have hflag : ∀ e : Bool, IsItem (if e then ascii "+o" else ascii "-o") := by
    intro e
    cases e <;> exact ⟨by decide, by decide, by decide⟩
  have hform : other ++ ascii " " ++ (if enable then ascii "+o" else ascii "-o") ++ ascii " " ++
      d.nickname = other ++ byte ' ' :: ((if enable then ascii "+o" else ascii "-o") ++
        byte ' ' :: d.nickname) := by
    simp only [List.append_assoc]
    rfl
  rw [operatorNotice, hform] at hread ⊢
  have hcmd : IsItem (ascii "MODE") := ⟨by decide, by decide, by decide⟩
  have hmsg := spliter_makeCommand hc hcmd (by simp) hread
  rw [parameters_item ho, parameters_item (hflag enable), parameters_one hd] at hmsg
  rw [noticeOf_some hmsg]
  cases enable
  · exact notice_mode _ _
  · exact notice_mode _ _

/-! ## The other lines -/

/-- The line is read as a command that is not the one of a notice. -/
theorem noticeOf_other {line : Bytes} {msg : Message} (h : spliter line = some msg)
    (hcmd : msg.command ∉ noticeCommands) : noticeOf name line = none := by
  rw [noticeOf_some h, notice_eq_none hcmd]

theorem noticeOf_makeCommand {cmd rest : Bytes} (hc : c.Masked) (hcmd : IsItem cmd)
    (hrest : rest ≠ []) (hother : cmd.map toupper ∉ noticeCommands)
    (hread : Readable (makeCommand c cmd rest)) :
    noticeOf name (makeCommand c cmd rest) = none :=
  noticeOf_other (spliter_makeCommand hc hcmd hrest hread) hother

/-- The mode string of the other modes is neither `+o` nor `-o`. -/
theorem noticeOf_mode {applied args : Bytes} (hc : c.Masked) (ho : IsItem other)
    (hne : applied ≠ []) (happlied : ∀ b ∈ applied, b ∈ modeBytes)
    (hargs : args = [] ∨ ∃ rest, args = byte ' ' :: rest)
    (hread : Readable (modeNotice c other applied args)) :
    noticeOf name (modeNotice c other applied args) = none := by
  have hitem : IsItem applied := by
    refine ⟨hne, fun h => absurd (happlied _ h) (by decide), fun h => ?_⟩
    exact absurd (happlied _ (List.mem_of_head? h)) (by decide)
  have hstops : Stops args := by
    rcases hargs with rfl | ⟨rest, rfl⟩
    · exact stops_nil
    · exact stops_cons rest
  have hno : byte 'o' ∉ applied := fun h => absurd (happlied _ h) (by decide)
  have hform : other ++ ascii " " ++ applied ++ args = other ++ byte ' ' :: (applied ++ args) := by
    simp only [List.append_assoc]
    rfl
  rw [modeNotice, hform] at hread ⊢
  have hcmd : IsItem (ascii "MODE") := ⟨by decide, by decide, by decide⟩
  have hmsg := spliter_makeCommand hc hcmd (by simp) hread
  rw [parameters_item ho, hitem.skipSpaces, splitParameters_item hitem hstops] at hmsg
  have hplus : applied ≠ ascii "+o" := by
    rintro rfl
    exact hno (by decide)
  have hminus : applied ≠ ascii "-o" := by
    rintro rfl
    exact hno (by decide)
  rw [noticeOf_some hmsg]
  refine (notice_mode _ _).trans ?_
  simp [hplus, hminus]

theorem map_toupper_digits {code : Bytes} (h : ∀ b ∈ code, isDigit b = true) :
    code.map toupper = code := by
  refine (List.map_congr_left fun b hb => ?_).trans (List.map_id code)
  have hdigit : ∀ b : Byte, isDigit b = true → toupper b = b := by decide +kernel
  exact hdigit b (h b hb)

theorem noticeOf_reply {m : Bytes} (h : ServerReply m) (hread : Readable m) :
    noticeOf name m = none := by
  obtain ⟨code, rest, hcode, rfl⟩ := h
  have hform : ascii ":ircserv " ++ code ++ ascii " " ++ rest =
      ascii ":" ++ ascii "ircserv" ++ ascii " " ++ (code ++ byte ' ' :: rest) := by
    simp only [List.append_assoc]
    rfl
  have hitem : IsItem code ∧ code.map toupper ∉ noticeCommands := by
    rcases hcode with hnumber | rfl
    · rw [isReplyNumber, Bool.and_eq_true, isNumeral, Bool.and_eq_true, List.all_eq_true] at hnumber
      obtain ⟨⟨hne, hdigits⟩, -⟩ := hnumber
      refine ⟨⟨by simpa using hne, fun h => absurd (hdigits _ h) (by decide), fun h => ?_⟩, ?_⟩
      · exact absurd (hdigits _ (List.mem_of_head? h)) (by decide)
      · rw [map_toupper_digits hdigits]
        intro hin
        have hletters : ∀ cmd ∈ noticeCommands, cmd.all isDigit = false := by decide
        have hfalse := hletters code hin
        rw [List.all_eq_true.mpr hdigits] at hfalse
        exact absurd hfalse (by decide)
    · exact ⟨⟨by decide, by decide, by decide⟩, by decide⟩
  rw [hform] at hread ⊢
  have hserver : ascii "ircserv" ≠ [] := by decide
  have hscan := scan_origin hserver (by decide) hitem.1 (stops_cons rest)
  exact noticeOf_other ((spliter_readable hread (by simp)).trans hscan) hitem.2

/-- A line of the server without an origin is never a notice. -/
theorem noticeOf_plain {cmd tail : Bytes} (hcmd : IsItem cmd) (htail : Stops tail)
    (hother : cmd.map toupper ∉ noticeCommands) (hread : Readable (cmd ++ tail)) :
    noticeOf name (cmd ++ tail) = none := by
  have hne : cmd ++ tail ≠ [] := by simp [hcmd.nonempty]
  exact noticeOf_other ((spliter_readable hread hne).trans (scan_plain hcmd htail)) hother

theorem noticeOf_closing {ip : Bytes} (hread : Readable (closingLine ip reason)) :
    noticeOf name (closingLine ip reason) = none := by
  have hform : closingLine ip reason =
      ascii "ERROR" ++ byte ' ' :: (ascii ":Closing Link: " ++ ip ++ ascii " (" ++ reason ++
        ascii ")") := by
    simp only [closingLine, List.append_assoc]
    rfl
  rw [hform] at hread ⊢
  exact noticeOf_plain ⟨by decide, by decide, by decide⟩ (stops_cons _) (by decide) hread

theorem noticeOf_ping : noticeOf name (ascii "PING :ircserv") = none := by
  have hread : Readable (ascii "PING" ++ ascii " :ircserv") := by
    constructor <;> decide +kernel
  exact noticeOf_plain ⟨by decide, by decide, by decide⟩ (stops_cons _) (by decide) hread

end lines
end FtIrc
