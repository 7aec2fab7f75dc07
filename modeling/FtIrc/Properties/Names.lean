import FtIrc.Effects.Joins
import FtIrc.Effects.Sessions
import FtIrc.Library.Words

/-!
# The names list

The 353 lines of a JOIN list the members of the channel in order, and none of them is too long.
-/

namespace FtIrc

/-- The trailing parameter of a line, from the first colon behind a space on. -/
def trailingPart : Bytes → Bytes
  | [] => []
  | b :: rest =>
    if b = byte ' ' ∧ rest.head? = some (byte ':') then rest.tail else trailingPart rest

/-- A line of the names list. -/
def isNames (m : Bytes) : Bool := numericOf m = some (ascii "353")

theorem trailingPart_word {u : Bytes} (hu : byte ' ' ∉ u) (s : Bytes) :
    trailingPart (u ++ s) = trailingPart s := by
  induction u with
  | nil => rfl
  | cons b u ih =>
    obtain ⟨hb, hu⟩ := not_or.mp (fun h => hu (List.mem_cons.mpr h))
    rw [List.cons_append, trailingPart, if_neg fun h => hb h.1.symm, ih hu]

theorem trailingPart_space {s : Bytes} (hs : s.head? ≠ some (byte ':')) :
    trailingPart (byte ' ' :: s) = trailingPart s := by
  rw [trailingPart, if_neg fun h => hs h.2]

/-! ## Packing -/

namespace Server

/-- The state of the loop over the members: the lines are the full groups, and the batch is the last
one. -/
def PackedSoFar (header : Bytes) (limit : Nat) (entries : List Bytes)
    (st : List Bytes × Bytes) : Prop :=
  (entries = [] ∧ st = ([], [])) ∨
    ∃ groups last, Packed (byte ' ') limit entries (groups ++ [last]) ∧
      st = (groups.map fun g => header ++ joinWords (byte ' ') g, joinWords (byte ' ') last)

theorem packedSoFar_round {header : Bytes} {limit : Nat} {entries : List Bytes}
    {st : List Bytes × Bytes} (h : PackedSoFar header limit entries st)
    (hne : ∀ e ∈ entries, e ≠ []) {entry : Bytes} (hentry : entry.length ≤ limit) :
    PackedSoFar header limit (entries ++ [entry]) (packRound header limit st entry) := by
  rcases h with ⟨rfl, rfl⟩ | ⟨groups, last, hpacked, rfl⟩
  · refine .inr ⟨[], [entry], by simpa using Packed.nil.open_line hentry, ?_⟩
    simp [packRound, joinWords]
  · have hlast : last ≠ [] := hpacked.nonempty last (by simp)
    have hwords : ∀ w ∈ last, w ≠ [] := fun w hw =>
      hne w (by rw [← hpacked.flatten]; exact List.mem_flatten.mpr ⟨last, by simp, hw⟩)
    have hbatch : (joinWords (byte ' ') last).isEmpty = false :=
      List.isEmpty_eq_false_iff.mpr (joinWords_ne_nil _ hlast hwords)
    simp only [packRound, hbatch, Bool.not_false, Bool.true_and, decide_eq_true_eq, if_true]
    split_ifs with hfull
    · refine .inr ⟨groups ++ [last], [entry], hpacked.open_line hentry, ?_⟩
      simp [joinWords]
    · refine .inr ⟨groups, last ++ [entry], hpacked.extend (by omega), ?_⟩
      rw [joinWords_concat _ hlast]
      have hspace : ascii " " = [byte ' '] := rfl
      simp [hspace]

/-- The entries are packed in order into lines within the limit. -/
theorem packNames_packed {limit : Nat} {entries : List Bytes} (header : Bytes)
    (hentries : ∀ e ∈ entries, e ≠ [] ∧ e.length ≤ limit) :
    ∃ groups, Packed (byte ' ') limit entries groups ∧
      packNames header limit entries =
        groups.map fun g => header ++ joinWords (byte ' ') g := by
  have hfold : PackedSoFar header limit entries
      (entries.foldl (packRound header limit) ([], [])) := by
    induction entries using List.reverseRecOn with
    | nil => exact .inl ⟨rfl, rfl⟩
    | append_singleton es e ih =>
      rw [List.foldl_append]
      have hes : ∀ e ∈ es, e ≠ [] ∧ e.length ≤ limit := fun e' he' =>
        hentries e' (List.mem_append_left _ he')
      exact packedSoFar_round (ih hes) (fun e' he' => (hes e' he').1) (hentries e (by simp)).2
  unfold packNames
  rcases hfold with ⟨rfl, hst⟩ | ⟨groups, last, hpacked, hst⟩
  · exact ⟨[], Packed.nil, rfl⟩
  · refine ⟨groups ++ [last], hpacked, ?_⟩
    have hlast : last ≠ [] := hpacked.nonempty last (by simp)
    have hwords : ∀ w ∈ last, w ≠ [] := fun w hw =>
      (hentries w (by rw [← hpacked.flatten]; exact List.mem_flatten.mpr ⟨last, by simp, hw⟩)).1
    have hbatch : (joinWords (byte ' ') last).isEmpty = false :=
      List.isEmpty_eq_false_iff.mpr (joinWords_ne_nil _ hlast hwords)
    rw [hst]
    simp [hbatch]

section names

variable {s s' t : Server} {p : ChannelPtr} {c : ClientPtr}

theorem namesHeader_eq (s : Server) (p : ChannelPtr) (c : ClientPtr) :
    s.namesHeader p c = ascii ":ircserv" ++ byte ' ' :: (ascii "353" ++ byte ' ' ::
      ((s.client c).nickname ++ byte ' ' :: (ascii "=" ++ byte ' ' ::
        ((s.channel p).name ++ [byte ' ', byte ':'])))) := by
  have hcode : decimal Numeric.rplNamReply = ascii "353" := by decide
  have hopen : ascii ":" ++ ascii "ircserv" = ascii ":ircserv" := by decide
  have hspace : ascii " " = [byte ' '] := by decide
  have heq : ascii "= " = ascii "=" ++ [byte ' '] := by decide
  have hclose : ascii " :" = [byte ' ', byte ':'] := by decide
  simp only [namesHeader, makeReply, hcode, hopen, hspace, heq, hclose, List.append_assoc,
    List.cons_append, List.nil_append]
  rfl

theorem isValidNickname_length {n : Bytes} (h : isValidNickname n = true) : n.length ≤ 9 := by
  cases n with
  | nil => cases h
  | cons first rest =>
    simp only [isValidNickname, Bool.and_eq_true, decide_eq_true_eq] at h
    exact h.1.1

theorem isValidChannelName_length {n : Bytes} (h : isValidChannelName n = true) :
    n.length ≤ 50 := by
  cases n with
  | nil => cases h
  | cons first rest =>
    simp only [isValidChannelName, Bool.and_eq_true, decide_eq_true_eq] at h
    exact h.1.1.1.1

theorem isValidNickname_head {n : Bytes} (h : isValidNickname n = true) (s : Bytes) :
    (n ++ s).head? ≠ some (byte ':') := by
  cases n with
  | nil => cases h
  | cons first rest =>
    simp only [isValidNickname, Bool.and_eq_true] at h
    have hfirst := h.1.2
    intro hcolon
    obtain rfl : first = byte ':' := by simpa using hcolon
    exact absurd hfirst (by decide)

theorem isValidChannelName_no_space {n : Bytes} (h : isValidChannelName n = true) :
    byte ' ' ∉ n := by
  cases n with
  | nil => cases h
  | cons first rest =>
    simp only [isValidChannelName, Bool.and_eq_true, Bool.not_eq_true', List.contains_eq_mem,
      decide_eq_false_iff_not] at h
    exact h.1.1.2

theorem isValidChannelName_head {n : Bytes} (h : isValidChannelName n = true) (s : Bytes) :
    (n ++ s).head? ≠ some (byte ':') := by
  cases n with
  | nil => cases h
  | cons first rest =>
    simp only [isValidChannelName, Bool.and_eq_true] at h
    have hfirst := h.1.1.1.2
    intro hcolon
    obtain rfl : first = byte ':' := by simpa using hcolon
    exact absurd hfirst (by decide)

/-- The limits on names leave room for an entry. -/
theorem namesHeader_length (hp : isValidChannelName (s.channel p).name = true)
    (hc : isValidNickname (s.client c).nickname = true) :
    (s.namesHeader p c).length ≤ 77 := by
  have hname := isValidChannelName_length hp
  have hnick := isValidNickname_length hc
  have hopen : (ascii ":ircserv").length = 8 := by decide
  have hcode : (ascii "353").length = 3 := by decide
  have heq : (ascii "=").length = 1 := by decide
  rw [namesHeader_eq]
  simp only [List.length_append, List.length_cons, List.length_nil, hopen, hcode, heq]
  omega

/-- The header ends at the first colon behind a space. -/
theorem trailingPart_namesLine (hp : isValidChannelName (s.channel p).name = true)
    (hc : isValidNickname (s.client c).nickname = true) (body : Bytes) :
    trailingPart (s.namesHeader p c ++ body) = body := by
  have hword : ∀ {u : Bytes}, byte ' ' ∉ u → ∀ {r : Bytes}, r.head? ≠ some (byte ':') →
      trailingPart (u ++ byte ' ' :: r) = trailingPart r := by
    intro u hu r hr
    rw [trailingPart_word hu, trailingPart_space hr]
  have hopen : byte ' ' ∉ ascii ":ircserv" := by decide
  have hcode : byte ' ' ∉ ascii "353" := by decide
  have heq : byte ' ' ∉ ascii "=" := by decide
  rw [namesHeader_eq]
  simp only [List.append_assoc, List.cons_append, List.nil_append]
  rw [hword hopen, hword hcode (isValidNickname_head hc _),
    hword (isValidNickname_no_space hc), hword heq (isValidChannelName_head hp _),
    trailingPart_word (isValidChannelName_no_space hp)]
  · rw [trailingPart, if_pos ⟨rfl, rfl⟩]
    rfl
  · have hhead : ∀ r, (ascii "=" ++ r).head? = some (byte '=') := fun _ => rfl
    rw [hhead]
    decide
  · have hhead : ∀ r, (ascii "353" ++ r).head? = some (byte '3') := fun _ => rfl
    rw [hhead]
    decide

theorem namesEntry_word (hc : isValidNickname (s.client c).nickname = true) :
    s.namesEntry p c ≠ [] ∧ (s.namesEntry p c).length ≤ 10 ∧ byte ' ' ∉ s.namesEntry p c := by
  have hnick := isValidNickname_length hc
  have hspace := isValidNickname_no_space hc
  have hne : (s.client c).nickname ≠ [] := by
    intro h
    rw [h] at hc
    cases hc
  unfold namesEntry
  split_ifs
  · have hat : ascii "@" = [byte '@'] := by decide
    have hne' : byte ' ' ≠ byte '@' := by decide
    rw [hat]
    refine ⟨by simp, ?_, ?_⟩
    · simp only [List.singleton_append, List.length_cons]
      omega
    · simp [hspace, hne']
  · exact ⟨by simpa using hne, by simpa using hnick.trans (by decide), by simpa using hspace⟩

/-- The names list that a client gets together with its own membership. -/
structure NamesComplete (s s' : Server) (p : ChannelPtr) (c : ClientPtr) : Prop where
  nodup : (s'.channel p).members.Nodup
  header : sizeSub 510 (s'.namesHeader p c).length = 510 - (s'.namesHeader p c).length ∧
    (s'.namesHeader p c).length ≤ 510
  lines : ∃ new, (s'.client c).replies = (s.client c).replies ++ new ∧
    ((new.filter isNames).flatMap fun m => (trailingPart m).splitOn (byte ' ')) =
      (s'.channel p).members.map (s'.namesEntry p) ∧
    ∀ m ∈ new.filter isNames, trailingPart m ≠ [] ∧ m.length ≤ 510 ∧ outputLine m = m

/-- The lines of the list alone. -/
theorem namesLines_complete (hp : isValidChannelName (s.channel p).name = true)
    (hc : isValidNickname (s.client c).nickname = true)
    (hm : ∀ d ∈ (s.channel p).members, isValidNickname (s.client d).nickname = true) :
    sizeSub 510 (s.namesHeader p c).length = 510 - (s.namesHeader p c).length ∧
      ((s.namesLines p c).flatMap fun m => (trailingPart m).splitOn (byte ' ')) =
        (s.channel p).members.map (s.namesEntry p) ∧
      ∀ m ∈ s.namesLines p c, isNames m = true ∧ trailingPart m ≠ [] ∧ m.length ≤ 510 := by
  have hlen := namesHeader_length hp hc
  have hlimit : sizeSub 510 (s.namesHeader p c).length = 510 - (s.namesHeader p c).length := by
    unfold sizeSub
    omega
  have hentries : ∀ e ∈ (s.channel p).members.map (s.namesEntry p),
      e ≠ [] ∧ e.length ≤ 10 ∧ byte ' ' ∉ e := by
    intro e he
    obtain ⟨d, hd, rfl⟩ := List.mem_map.mp he
    exact namesEntry_word (hm d hd)
  obtain ⟨groups, hpacked, hlines⟩ := @packNames_packed
    (sizeSub 510 (s.namesHeader p c).length) _ (s.namesHeader p c)
    fun e he => ⟨(hentries e he).1, by have hlen' := (hentries e he).2.1; omega⟩
  have hgroup : ∀ g ∈ groups, ∀ w ∈ g, w ≠ [] ∧ w.length ≤ 10 ∧ byte ' ' ∉ w := fun g hg w hw =>
    hentries w (by rw [← hpacked.flatten]; exact List.mem_flatten.mpr ⟨g, hg, hw⟩)
  refine ⟨hlimit, ?_, fun m hmem => ?_⟩
  · rw [namesLines, hlines, List.flatMap_map, ← hpacked.flatten, List.flatten_eq_flatMap]
    refine List.flatMap_congr fun g hg => ?_
    rw [trailingPart_namesLine hp hc]
    exact splitOn_joinWords (hpacked.nonempty g hg) fun w hw => (hgroup g hg w hw).2.2
  · rw [namesLines, hlines] at hmem
    obtain ⟨g, hg, rfl⟩ := List.mem_map.mp hmem
    refine ⟨?_, ?_, ?_⟩
    · have hcode : decimal Numeric.rplNamReply = ascii "353" := by decide
      rw [isNames, namesHeader, makeReply_append, numericOf_makeReply (by decide), hcode]
      exact decide_eq_true rfl
    · rw [trailingPart_namesLine hp hc]
      exact joinWords_ne_nil _ (hpacked.nonempty g hg) fun w hw => (hgroup g hg w hw).1
    · have hjoin := hpacked.length_le g hg
      rw [List.length_append]
      omega

/-- Of what a JOIN sends to its issuer the 353 lines are those of the list. -/
theorem letIn_namesLines (hn : byte ' ' ∉ (t.client c).nickname)
    (hm : c ∉ (t.channel p).members)
    (hlines : ∀ m ∈ (t.letIn p c).namesLines p c, isNames m = true) :
    ∃ new, ((t.letIn p c).client c).replies = (t.client c).replies ++ new ∧
      new.filter isNames = (t.letIn p c).namesLines p c := by
  have hself : (t.letIn p c).namesLines p c = (t.enter p c).namesLines p c := by
    rw [letIn_eq]
    rfl
  rw [hself] at hlines ⊢
  have hnick : ((t.enter p c).client c).nickname = (t.client c).nickname := by
    rw [enter_client t hm, if_pos rfl]
  have hemits := (sameStreams_enter t hm).emit ((Output.all ((t.enter p c).channel p).members
    (joinNotice ((t.enter p c).client c) ((t.enter p c).channel p).name)).append
      (Output.list c ((t.enter p c).welcomeLines p c)))
  rw [← letIn_eq] at hemits
  refine ⟨_, hemits.replies c, ?_⟩
  have hjoin : isNames (joinNotice ((t.enter p c).client c) ((t.enter p c).channel p).name) =
      false := by
    have hnone := (sourced_makeCommand ((t.enter p c).client c) (ascii "JOIN")
      ((t.enter p c).channel p).name).numeric (hnick ▸ hn)
    rw [isNames, joinNotice, hnone]
    rfl
  have hreply : ∀ code nick rest, 100 ≤ code → decimal code ≠ ascii "353" →
      isNames (makeReply code nick rest) = false := by
    intro code nick rest hcode hne
    rw [isNames, numericOf_makeReply hcode, decide_eq_false_iff_not, Option.some.injEq]
    exact hne
  have htopic : isNames ((t.enter p c).topicLine p c) = false := by
    unfold topicLine
    split_ifs
    · exact hreply _ _ _ (by decide) (by decide)
    · exact hreply _ _ _ (by decide) (by decide)
  have hend : isNames (makeReply Numeric.rplEndOfNames ((t.enter p c).client c).nickname
      (((t.enter p c).channel p).name ++ ascii " :End of /NAMES list")) = false :=
    hreply _ _ _ (by decide) (by decide)
  have hnames : ((t.enter p c).namesLines p c).filter isNames = (t.enter p c).namesLines p c :=
    List.filter_eq_self.mpr hlines
  have hnotices : ∀ k, (List.replicate k (joinNotice ((t.enter p c).client c)
      ((t.enter p c).channel p).name)).filter isNames = [] := by
    intro k
    rw [List.filter_eq_nil_iff]
    intro m hmem
    rw [List.eq_of_mem_replicate hmem, hjoin]
    decide
  have hlist : Output.list c ((t.enter p c).welcomeLines p c) c =
      (t.enter p c).welcomeLines p c := if_pos rfl
  rw [Output.append, hlist, List.filter_append, Output.all, hnotices, List.nil_append,
    welcomeLines, List.filter_append, List.filter_append, hnames]
  simp [htopic, hend]

/-- Whoever becomes a member is told of all members, in their order, with the operators marked, on lines
that are sent whole. -/
theorem names_complete (h : ircserv.Reachable s) {e : Event} (he : Enabled s e)
    (hout : ¬ s.InChannel p c) (hin : (step s e).InChannel p c) :
    NamesComplete s (step s e) p c := by
  have h' : ircserv.Reachable (step s e) := .step h he
  have hb := (reachable_clean h).2
  have hb' := (reachable_clean h').2
  have hi' := reachable_identities h'
  obtain ⟨fd, msg, rfl, hc, -, hentry⟩ := step_joins hb he hout hin
  obtain ⟨t, q, hlets⟩ := entry_letsIn hentry
  obtain ⟨rfl, -⟩ := (hlets.joins p c hin).resolve_left hout
  have hvalid : ∀ d ∈ ((step s (.line fd)).channel p).members,
      isValidNickname ((step s (.line fd)).client d).nickname = true := by
    intro d hd
    obtain ⟨hlive, hreg, -⟩ := hb'.links.member p hin.1 d hd
    exact hi'.nickname d hlive (hi'.registered d hlive hreg).2.1
  have hname := hb'.links.channel_name p hin.1
  obtain ⟨hsub, hnames, hlines⟩ := namesLines_complete hname (hvalid c hin.2) hvalid
  refine ⟨hb'.links.members_nodup p hin.1, ⟨hsub, ?_⟩, ?_⟩
  · exact (namesHeader_length hname (hvalid c hin.2)).trans (by decide)
  · have hnick : (t.client c).nickname = ((step s (.line fd)).client c).nickname := by
      rw [hlets.letIn, letIn_eq, emit_client, enter_client t hlets.not_member, if_pos rfl]
      rfl
    have hspace : byte ' ' ∉ (t.client c).nickname := by
      rw [hnick]
      exact isValidNickname_no_space (hvalid c hin.2)
    obtain ⟨new, hnew, hfilter⟩ := letIn_namesLines (p := p) hspace hlets.not_member
      (by rw [← hlets.letIn]; exact fun m hm => (hlines m hm).1)
    rw [← hlets.letIn] at hnew hfilter
    have hstart : (t.client c).replies = (s.client c).replies := by
      rw [(hlets.streams c).1, (sameStreams_popped s c c).1]
    rw [hstart] at hnew
    refine ⟨new, hnew, ?_, ?_⟩
    · rw [hfilter]
      exact hnames
    · rw [hfilter]
      intro m hm
      obtain ⟨-, htrail, hlen⟩ := hlines m hm
      exact ⟨htrail, hlen, if_pos hlen⟩

end names

/-- `ann` has a channel with `bob` in it, and `carol` asks to join it. -/
def carolJoins : List Event :=
  annAndBob ++ registers 6 (ascii "carol") ++ typed 4 (ascii "JOIN #a") ++
    typed 5 (ascii "JOIN #a") ++ [.recv 6 (.data (ascii "JOIN #A\r\n"))]

theorem names_complete_carol : ∃ s, session carolJoins = some s ∧
    ((step s (.line 6)).client 3).replies.getD 6 [] =
      ascii ":ircserv 353 carol = #a :@ann bob carol" ∧
    NamesComplete s (step s (.line 6)) 1 3 := by
  obtain ⟨s, hs, hview⟩ := Option.map_eq_some_iff.mp (by decide +kernel :
    (session carolJoins).map (fun s =>
      (enabled s (.line 6), (s.channel 1).members, (step s (.line 6)).channels.find? (ascii "#a"),
        ((step s (.line 6)).channel 1).members,
        decide (((step s (.line 6)).client 3).replies.getD 6 [] =
          ascii ":ircserv 353 carol = #a :@ann bob carol"))) =
      some (true, [1, 2], some 1, [1, 2, 3], true))
  simp only [Prod.mk.injEq, decide_eq_true_eq] at hview
  obtain ⟨hen, hbefore, hlive, hafter, hline⟩ := hview
  refine ⟨s, hs, hline, names_complete (session_reachable hs) (enabled_sound _ _ hen) ?_ ?_⟩
  · intro hin
    rw [InChannel, hbefore] at hin
    simp at hin
  · refine ⟨⟨_, hlive⟩, ?_⟩
    rw [hafter]
    simp

end Server
end FtIrc
