import RatboxServices.Net.HookCall
import RatboxServices.Net.System

namespace RatboxServices

open CString

/-! Topics that servers burst: which of several `TB` messages a channel keeps
the topic of. -/

/-- A `TB` message and the time it is received at. -/
structure TbMessage where
  now : Int
  clientP : ClientId
  parv : List CString
  deriving DecidableEq, Repr

namespace TbMessage

def topicts (message : TbMessage) : Int :=
  atol (message.parv.getD 1 [])

def topic (message : TbMessage) : CString :=
  if message.parv.length = 4 then message.parv.getD 3 []
  else message.parv.getD 2 []

def kept : Option TbMessage → TbMessage → TbMessage
  | none, message => message
  | some old, message => if old.now < message.topicts then old else message

def keptOf (messages : List TbMessage) (start : Option TbMessage) :
    Option TbMessage :=
  messages.foldl (fun old message => some (kept old message)) start

section Kept

variable {messages : List TbMessage} {least message : TbMessage}

theorem kept_choice (old : Option TbMessage) (message : TbMessage) :
    kept old message = message ∨ old = some (kept old message) := by
  cases old with
  | none => exact Or.inl rfl
  | some old =>
      by_cases newer : old.now < message.topicts
      · exact Or.inr (congrArg some (if_pos newer).symm)
      · exact Or.inl (if_neg newer)

theorem keptOf_mem {start : Option TbMessage}
    (found : keptOf messages start = some message) :
    start = some message ∨ message ∈ messages := by
  induction messages generalizing start with
  | nil => exact Or.inl found
  | cons first rest ih =>
      obtain one | later := ih found
      · have same : kept start first = message := Option.some.inj one
        obtain new | old := kept_choice start first
        · exact Or.inr (by rw [← same, new]; exact List.mem_cons_self)
        · exact Or.inl (old.trans one)
      · exact Or.inr (List.mem_cons_of_mem _ later)

theorem kept_least (past : ∀ other ∈ messages, other.topicts ≤ other.now)
    (oldest : ∀ other ∈ messages, least.topicts ≤ other.topicts) :
    kept (keptOf messages none) least = least := by
  cases before : keptOf messages none with
  | none => rfl
  | some old =>
      obtain impossible | listed := keptOf_mem before
      · cases impossible
      · have := past old listed
        have := oldest old listed
        exact if_neg (by omega)

theorem keptOf_eq_self
    (newer : ∀ other ∈ messages, least.now < other.topicts) :
    keptOf messages (some least) = some least := by
  induction messages with
  | nil => rfl
  | cons first rest ih =>
      have skipped : kept (some least) first = least :=
        if_pos (newer first List.mem_cons_self)
      show keptOf rest (some (kept (some least) first)) = some least
      rw [skipped]
      exact ih fun other listed => newer other (List.mem_cons_of_mem _ listed)

theorem exists_keptOf (listed : message ∈ messages)
    (older : message.topicts ≤ least.now) :
    ∃ other ∈ messages, keptOf messages (some least) = some other := by
  induction messages with
  | nil => cases listed
  | cons first rest ih =>
      show ∃ other ∈ first :: rest,
        keptOf rest (some (kept (some least) first)) = some other
      by_cases newer : least.now < first.topicts
      · have skipped : kept (some least) first = least := if_pos newer
        rw [skipped]
        obtain rfl | listed := List.mem_cons.mp listed
        · omega
        · obtain ⟨other, inside, found⟩ := ih listed
          exact ⟨other, List.mem_cons_of_mem _ inside, found⟩
      · have taken : kept (some least) first = first := if_neg newer
        rw [taken]
        cases found : keptOf rest (some first) with
        | none =>
            -- a message that is kept is never given up for none
            have some_ : ∀ (list : List TbMessage) (start : TbMessage),
                keptOf list (some start) ≠ none := by
              intro list
              induction list with
              | nil => simp [keptOf]
              | cons one others ih => exact fun start => ih _
            exact absurd found (some_ rest first)
        | some other =>
            refine ⟨other, ?_, rfl⟩
            obtain one | later := keptOf_mem found
            · cases one
              exact List.mem_cons_self
            · exact List.mem_cons_of_mem _ later

end Kept

end TbMessage

namespace State

structure IsTb (s : State) (chptr : ChannelId) (message : TbMessage) :
    Prop where
  source : s.clients.isServer message.clientP = true
  enough : 3 ≤ message.parv.length
  channel : s.chans.findChannel (message.parv.getD 0 []) = some chptr
  carries : message.topic ≠ []

def HasTopic (env : Env) (s : State) (chptr : ChannelId) :
    Option TbMessage → Prop
  | none => ∃ ch, s.chans.channel.cell chptr = some ch ∧ ch.topic = []
  | some message => ∃ ch, s.chans.channel.cell chptr = some ch ∧
      ch.topic = strlcpy (env.topicLen + 1) message.topic ∧
      ch.topicTsinfo = message.now

section Tb

variable {env : Env} {s : State} {chptr : ChannelId} {message : TbMessage}

theorem param_getD {parv : List CString} {index : Nat}
    (bound : index < parv.length) :
    param parv index = .ok (parv.getD index []) := by
  simp [param, bound]

theorem IsTb.frame {change : Channel → Channel} {other : TbMessage}
    (isTb : IsTb s chptr other) (kept : ∀ ch, (change ch).name = ch.name) :
    IsTb (s.onChans (·.modifyChannel chptr change)) chptr other where
  source := isTb.source
  enough := isTb.enough
  channel := by
    rw [← isTb.channel]
    have named : ∀ name, (s.chans.modifyChannel chptr change).isNamed name =
        s.chans.isNamed name := Chans.isNamed_modify rfl kept
    have table : (s.chans.modifyChannel chptr change).channelTable =
        s.chans.channelTable := rfl
    exact Chans.findChannel_congr table named _
  carries := isTb.carries

def setTopic (env : Env) (message : TbMessage) (who : CString) (ch : Channel) :
    Channel :=
  { ch with
    topic := strlcpy (env.topicLen + 1) message.topic
    topicwho := strlcpy (nickUserHostLen env + 1) who
    topicTsinfo := message.now }

theorem cTb_eq (unenforced : ∀ t, env.hooks.channelTopic t chptr = [])
    (isTb : IsTb s chptr message) :
    ∃ who, s.cTb env message.now message.clientP message.parv =
      .ok (if !(s.chans.channel.get chptr).topic.isEmpty &&
          decide ((s.chans.channel.get chptr).topicTsinfo < message.topicts)
        then s
        else s.onChans
          (·.modifyChannel chptr (setTopic env message who))) := by
  obtain ⟨source, enough, channel, carries⟩ := isTb
  obtain ⟨client, known⟩ : ∃ client,
      s.clients.deref message.clientP = .ok client := by
    unfold Clients.isServer at source
    unfold Clients.deref
    split at source
    · rename_i client cell
      exact ⟨client, rfl⟩
    · cases source
  obtain ⟨who, topic⟩ : ∃ who, tbTopic client message.parv =
      .ok (message.topic, who) := by
    unfold tbTopic TbMessage.topic
    split
    · rw [param_getD (by omega), param_getD (by omega)]
      exact ⟨_, rfl⟩
    · rw [param_getD (by omega)]
      exact ⟨_, rfl⟩
  refine ⟨who, ?_⟩
  have text : message.topic.isEmpty = false := by simpa using carries
  unfold cTb
  rw [if_neg (by simp [source]; omega), param_getD (by omega),
    param_getD (by omega), known]
  simp only [bind, Except.bind, channel, topic, text]
  show (if !(s.chans.channel.get chptr).topic.isEmpty &&
    decide ((s.chans.channel.get chptr).topicTsinfo < message.topicts)
      then _ else _) = _
  split
  · rfl
  · simp only [topicHook, unenforced]
    rfl

theorem cTb_kept (unenforced : ∀ t, env.hooks.channelTopic t chptr = [])
    (room : 0 < env.topicLen) (isTb : IsTb s chptr message)
    {old : Option TbMessage} (has : HasTopic env s chptr old)
    (carried : ∀ other, old = some other → other.topic ≠ []) :
    ∃ after, s.cTb env message.now message.clientP message.parv = .ok after ∧
      HasTopic env after chptr (some (TbMessage.kept old message)) ∧
      ∀ other, IsTb s chptr other → IsTb after chptr other := by
  obtain ⟨who, stepped⟩ := cTb_eq unenforced isTb
  have taken (ch : Channel) (cell : s.chans.channel.cell chptr = some ch) :
      HasTopic env (s.onChans (·.modifyChannel chptr
        (setTopic env message who))) chptr (some message) := by
    refine ⟨setTopic env message who ch, ?_, rfl, rfl⟩
    show (s.chans.channel.modify chptr _).cell chptr = _
    rw [Heap.modify_cell_self, cell]
    rfl
  cases old with
  | none =>
      obtain ⟨ch, cell, empty⟩ := has
      refine ⟨_, stepped, ?_, ?_⟩
      · rw [if_neg (by simp [Heap.get_eq cell, empty])]
        exact taken ch cell
      · rw [if_neg (by simp [Heap.get_eq cell, empty])]
        exact fun other isTb => isTb.frame fun _ => rfl
  | some old =>
      obtain ⟨ch, cell, topic, tsinfo⟩ := has
      have text : ch.topic.isEmpty = false := by
        obtain ⟨first, rest, split⟩ :=
          List.exists_cons_of_ne_nil (carried old rfl)
        obtain ⟨n, size⟩ : ∃ n, env.topicLen = n + 1 :=
          ⟨env.topicLen - 1, by omega⟩
        rw [topic, split, size]
        rfl
      by_cases newer : old.now < message.topicts
      · refine ⟨_, stepped, ?_, ?_⟩
        · rw [if_pos (by simp [Heap.get_eq cell, text, tsinfo, newer]),
            TbMessage.kept, if_pos newer]
          exact ⟨ch, cell, topic, tsinfo⟩
        · rw [if_pos (by simp [Heap.get_eq cell, text, tsinfo, newer])]
          exact fun other isTb => isTb
      · refine ⟨_, stepped, ?_, ?_⟩
        · rw [if_neg (by simp [Heap.get_eq cell, tsinfo, newer]),
            TbMessage.kept, if_neg newer]
          exact taken ch cell
        · rw [if_neg (by simp [Heap.get_eq cell, tsinfo, newer])]
          exact fun other isTb => isTb.frame fun _ => rfl

theorem cTb_run (unenforced : ∀ t, env.hooks.channelTopic t chptr = [])
    (room : 0 < env.topicLen) {messages : List TbMessage}
    (tbs : ∀ message ∈ messages, IsTb s chptr message)
    {old : Option TbMessage} (has : HasTopic env s chptr old)
    (carried : ∀ other, old = some other → other.topic ≠ []) :
    ∃ after, run (fun s message => s.cTb env message.now message.clientP
        message.parv) s messages = .ok after ∧
      HasTopic env after chptr (TbMessage.keptOf messages old) := by
  induction messages generalizing s old with
  | nil => exact ⟨s, rfl, has⟩
  | cons message rest ih =>
      have isTb := tbs message List.mem_cons_self
      obtain ⟨middle, stepped, kept, frame⟩ :=
        cTb_kept unenforced room isTb has carried
      have next : ∀ other, some (TbMessage.kept old message) = some other →
          other.topic ≠ [] := by
        intro other same
        cases same
        obtain new | before := TbMessage.kept_choice old message
        · rw [new]
          exact isTb.carries
        · exact carried _ before
      obtain ⟨after, remaining, final⟩ := ih
        (fun other listed =>
          frame other (tbs other (List.mem_cons_of_mem _ listed))) kept next
      exact ⟨after, run_cons_eq_ok.mpr ⟨middle, stepped, remaining⟩, final⟩

/-- Where no service holds the channel to a topic, it ends with the oldest
topic if every message after the one with it carries a time later than that
one was received at, and only then where all topics are different. -/
theorem topic_of_tbs {s : State} {chptr : ChannelId} {ch : Channel}
    (unenforced : ∀ t, env.hooks.channelTopic t chptr = [])
    (room : 0 < env.topicLen)
    (cell : s.chans.channel.cell chptr = some ch) (none_ : ch.topic = [])
    (before after : List TbMessage) (least : TbMessage)
    (tbs : ∀ message ∈ before ++ least :: after, IsTb s chptr message)
    (past : ∀ message ∈ before ++ least :: after,
      message.topicts ≤ message.now)
    (oldest : ∀ message ∈ before ++ after, least.topicts < message.topicts) :
    ∃ final topic, run (fun s message => s.cTb env message.now message.clientP
        message.parv) s (before ++ least :: after) = .ok final ∧
      (final.chans.channel.cell chptr).map Channel.topic = some topic ∧
      ((∀ message ∈ after, least.now < message.topicts) →
        topic = strlcpy (env.topicLen + 1) least.topic) ∧
      ((∀ message ∈ after, strlcpy (env.topicLen + 1) message.topic ≠
          strlcpy (env.topicLen + 1) least.topic) →
        topic = strlcpy (env.topicLen + 1) least.topic →
        ∀ message ∈ after, least.now < message.topicts) := by
  have start : HasTopic env s chptr none := ⟨ch, cell, none_⟩
  obtain ⟨final, reached, has⟩ := cTb_run unenforced room tbs start (by simp)
  have first : TbMessage.kept (TbMessage.keptOf before none) least = least := by
    refine TbMessage.kept_least (fun other listed => past other ?_) ?_
    · exact List.mem_append_left _ listed
    · exact fun other listed =>
        Int.le_of_lt (oldest other (List.mem_append_left _ listed))
  have whole : TbMessage.keptOf (before ++ least :: after) none =
      TbMessage.keptOf after (some least) := by
    unfold TbMessage.keptOf at first ⊢
    rw [List.foldl_append, List.foldl_cons, first]
  rw [whole] at has
  by_cases newer : ∀ message ∈ after, least.now < message.topicts
  · rw [TbMessage.keptOf_eq_self newer] at has
    obtain ⟨ch, cell, topic, -⟩ := has
    exact ⟨final, ch.topic, reached, by rw [cell]; rfl, fun _ => topic,
      fun _ _ => newer⟩
  · obtain ⟨message, listed, older⟩ : ∃ message ∈ after,
        message.topicts ≤ least.now := by
      simpa using newer
    obtain ⟨other, inside, found⟩ := TbMessage.exists_keptOf listed older
    rw [found] at has
    obtain ⟨ch, cell, topic, -⟩ := has
    refine ⟨final, ch.topic, reached, by rw [cell]; rfl,
      fun all => absurd all newer, fun different same => ?_⟩
    exact absurd (topic.symm.trans same) (different other inside)

end Tb

def topicless : List Event :=
  linkUp
    [⟨":0AB UID one 1 5 +i u h 0 0ABAAAAAA :g".toList, false⟩,
      ⟨":0AB SJOIN 5 #a + :0ABAAAAAA".toList, false⟩]

def burst (now : Int) (topicts topic : String) : TbMessage :=
  ⟨now, 0, ["#a".toList, topicts.toList, "who".toList, topic.toList]⟩

/-- The oldest topic comes last of all that were received before it was set. -/
theorem topic_of_tbs_last :
    ∃ s, run (step .quiet) (start [] 300) topicless = .ok s ∧
      ∃ final topic, run (fun s message => s.cTb .quiet message.now
          message.clientP message.parv) s
          ([burst 500 "200" "new"] ++ burst 510 "100" "old" ::
            [burst 520 "515" "newest"]) = .ok final ∧
        (final.chans.channel.cell 0).map Channel.topic = some topic ∧
        topic = "old".toList := by
  have observed : (run (step .quiet) (start [] 300) topicless).toOption.map
      (fun s => (s.clients.isServer 0, s.chans.findChannel "#a".toList,
        (s.chans.channel.cell 0).map Channel.topic)) =
          some (true, some 0, some []) := by
    decide +kernel
  obtain ⟨s, reached, seen⟩ := Except.exists_of_observed observed
  rw [Prod.mk.injEq, Prod.mk.injEq, Option.map_eq_some_iff] at seen
  obtain ⟨server, named, ch, cell, none_⟩ := seen
  have isTb (now : Int) (topicts topic : String) (text : topic.toList ≠ []) :
      IsTb s 0 (burst now topicts topic) :=
    ⟨server, by simp [burst], named, text⟩
  have unenforced : ∀ t, Env.quiet.hooks.channelTopic t 0 = [] :=
    fun _ => rfl
  obtain ⟨final, topic, ran, kept, newer, -⟩ := topic_of_tbs unenforced
    (by decide) cell none_ [burst 500 "200" "new"]
    [burst 520 "515" "newest"] (burst 510 "100" "old") (by
      intro message listed
      simp only [List.cons_append, List.nil_append, List.mem_cons,
        List.not_mem_nil, or_false] at listed
      obtain rfl | rfl | rfl := listed <;> exact isTb _ _ _ (by decide))
    (by decide +kernel) (by decide +kernel)
  exact ⟨s, reached, final, topic, ran, kept, newer (by decide +kernel)⟩

/-- A newer topic replaces the oldest, which was received later than the time
the newer one carries. -/
theorem not_topic_of_tbs :
    ∃ s, run (step .quiet) (start [] 300) topicless = .ok s ∧
      (s.chans.channel.cell 0).map Channel.topic = some [] ∧
      (burst 500 "100" "old").topicts = 100 ∧
      (burst 510 "200" "new").topicts = 200 ∧
      ∃ final, run (fun s message => s.cTb .quiet message.now message.clientP
          message.parv) s
          [burst 500 "100" "old", burst 510 "200" "new"] = .ok final ∧
        (final.chans.channel.cell 0).map Channel.topic =
          some "new".toList := by
  have observed : (run (step .quiet) (start [] 300) topicless).toOption.map
      (fun s => ((s.chans.channel.cell 0).map Channel.topic,
        (run (fun s message => s.cTb .quiet message.now message.clientP
          message.parv) s [burst 500 "100" "old",
            burst 510 "200" "new"]).toOption.map fun final =>
          (final.chans.channel.cell 0).map Channel.topic)) =
        some (some [], some (some "new".toList)) := by
    decide +kernel
  obtain ⟨s, reached, seen⟩ := Except.exists_of_observed observed
  rw [Prod.mk.injEq] at seen
  obtain ⟨none_, last⟩ := seen
  exact ⟨s, reached, none_, by decide +kernel, by decide +kernel,
    Except.exists_of_observed last⟩

end State

end RatboxServices
