/-
  NewApi.Convert.ChatRequestKept

  What the Claude messages keep of the chat messages: the tool calls, the tool
  results and the texts.  A message that is fused with the one before it takes
  the text of both, but only its own tool calls.
-/

import NewApi.Convert.ChatToClaudeRequest

namespace NewApi.ChatRequest

open List (flatMap_cons foldl_cons length_append mem_append mem_append_left mem_append_right
  mem_cons)
open NewApi.Lib

variable {N : Type}

/-! ## Tool blocks -/

def ClaudeMediaMessage.isTool : ClaudeMediaMessage N → Bool
  | toolUse _ _ _ => true
  | toolResult _ _ => true
  | _ => false

variable (messages : List (ClaudeMessage N))

def toolBlocks : List (ClaudeMediaMessage N) :=
  messages.flatMap fun m => m.content.toBlocks.filter ClaudeMediaMessage.isTool

def FormatMessage.expected (env : ClaudeEnv N) (m : FormatMessage N) : List (ClaudeMediaMessage N) :=
  match m.role with
  | .system => []
  | .tool => [.toolResult m.toolCallId m.content]
  | _ => (m.toolCalls.getD []).map (toolUse env)

def Message.calls (m : Message N) : List ToolCallRequest :=
  if m.roleOf = .assistant then m.toolCalls.getD [] else []

/-- The tool blocks that a message stands for: one for every tool call of an
    assistant's message, and one for a tool message with an id. -/
def Message.expected (env : ClaudeEnv N) (m : Message N) : List (ClaudeMediaMessage N) :=
  if m.roleOf = .tool then [.toolResult m.toolCallId (orDots m.content)]
  else m.calls.map (toolUse env)

@[simp] theorem toolBlocks_append (as bs : List (ClaudeMessage N)) :
    toolBlocks (as ++ bs) = toolBlocks as ++ toolBlocks bs := by
  simp [toolBlocks]

@[simp] theorem toolBlocks_singleton (m : ClaudeMessage N) :
    toolBlocks [m] = m.content.toBlocks.filter ClaudeMediaMessage.isTool := by
  simp [toolBlocks]

@[simp] theorem toolBlocks_placeholder : toolBlocks [(placeholderUserMessage : ClaudeMessage N)] = [] := rfl

theorem getLast?_split {α : Type*} {l : List α} {a : α} (h : l.getLast? = some a) :
    l = l.dropLast ++ [a] := by
  obtain ⟨init, rfl⟩ := List.getLast?_eq_some_iff.1 h
  simp

theorem toolBlocks_addToolResult {block : ClaudeMediaMessage N} (h : block.isTool = true) :
    toolBlocks (addToolResult messages block) = toolBlocks messages ++ [block] := by
  unfold addToolResult
  cases hlast : messages.getLast? with
  | none => simp [ClaudeContent.toBlocks, h]
  | some last =>
    by_cases hrole : last.role = .user
    · have hsplit := getLast?_split hlast
      have hbefore : toolBlocks messages = toolBlocks messages.dropLast ++
          last.content.toBlocks.filter ClaudeMediaMessage.isTool := by
        conv => lhs; rw [hsplit]
        simp
      simp only [hrole, if_true, toolBlocks_append, toolBlocks_singleton, hbefore]
      simp [ClaudeContent.toBlocks, h]
    · simp [hrole, ClaudeContent.toBlocks, h]

variable {env : ClaudeEnv N}

theorem mediaBlock_not_tool {m : MediaContent}
    {block : Option (ClaudeMediaMessage N)} (h : mediaBlock env m = .ok block) :
    block.toList.filter ClaudeMediaMessage.isTool = [] := by
  unfold mediaBlock at h
  split at h
  · cases h
    split <;> rfl
  split at h
  · cases h
    rfl
  obtain ⟨⟨data, mimeType⟩, -, hok⟩ := bind_eq_ok.1 h
  cases hok
  split_ifs <;> rfl

theorem mediaBlocks_not_tool {ms : List MediaContent}
    {blocks : List (ClaudeMediaMessage N)} (h : mediaBlocks env ms = .ok blocks) :
    blocks.filter ClaudeMediaMessage.isTool = [] := by
  induction ms generalizing blocks with
  | nil =>
    cases h
    rfl
  | cons m ms ih =>
    obtain ⟨block, hblock, hrest⟩ := bind_eq_ok.1 h
    obtain ⟨rest, hms, hok⟩ := bind_eq_ok.1 hrest
    cases hok
    rw [List.filter_append, mediaBlock_not_tool hblock, ih hms]
    rfl

theorem filter_toolUse (env : ClaudeEnv N) (calls : List ToolCallRequest) :
    (calls.map (toolUse env)).filter ClaudeMediaMessage.isTool = calls.map (toolUse env) := by
  apply List.filter_eq_self.2
  intro block hblock
  obtain ⟨call, -, rfl⟩ := List.mem_map.1 hblock
  rfl

variable {m : FormatMessage N}

theorem toolBlocks_claudeContent {content : ClaudeContent N}
    (h : claudeContent env m = .ok content) :
    content.toBlocks.filter ClaudeMediaMessage.isTool = (m.toolCalls.getD []).map (toolUse env) := by
  unfold claudeContent at h
  split at h
  case h_1 text hs hcalls =>
    cases h
    rw [hcalls]
    rfl
  case h_2 =>
    obtain ⟨media, hmedia, hok⟩ := bind_eq_ok.1 h
    cases hok
    show List.filter _ (media ++ _) = _
    rw [List.filter_append, mediaBlocks_not_tool hmedia, filter_toolUse]
    rfl

/-! ## The second loop -/

/-- The messages that a round starts from: the placeholder comes before a first
    message that is not the user's. -/
def opened (st : ClaudeState N) (role : Role) : List (ClaudeMessage N) :=
  if st.isFirst ∧ role ≠ .user then st.messages ++ [placeholderUserMessage] else st.messages

variable {st st' : ClaudeState N}

theorem claudeStep_cases (h : claudeStep env st m = .ok st') :
    (m.role = .system ∧ st' = { st with system := st.system ++ systemTexts m.content }) ∨
    (m.role = .tool ∧ st' = { st with
      messages := addToolResult (opened st .tool) (.toolResult m.toolCallId m.content)
      isFirst := false }) ∨
    (m.role ≠ .system ∧ m.role ≠ .tool ∧ ∃ content, claudeContent env m = .ok content ∧
      st' = { st with messages := opened st m.role ++ [⟨m.role, content⟩], isFirst := false }) := by
  unfold claudeStep at h
  by_cases hsystem : m.role = .system
  · rw [if_pos hsystem] at h
    exact .inl ⟨hsystem, (Except.ok.inj h).symm⟩
  rw [if_neg hsystem] at h
  by_cases htool : m.role = .tool
  · simp only [htool, if_true] at h
    exact .inr (.inl ⟨htool, (Except.ok.inj h).symm⟩)
  simp only [htool, if_false] at h
  obtain ⟨content, hcontent, hok⟩ := bind_eq_ok.1 h
  exact .inr (.inr ⟨hsystem, htool, content, hcontent, (Except.ok.inj hok).symm⟩)

@[simp] theorem toolBlocks_opened (st : ClaudeState N) (role : Role) :
    toolBlocks (opened st role) = toolBlocks st.messages := by
  unfold opened
  split_ifs
  · rw [toolBlocks_append, toolBlocks_placeholder, List.append_nil]
  · rfl

theorem claudeStep_toolBlocks (h : claudeStep env st m = .ok st') :
    toolBlocks st'.messages = toolBlocks st.messages ++ m.expected env := by
  obtain ⟨hrole, rfl⟩ | ⟨hrole, rfl⟩ | ⟨hsystem, htool, content, hcontent, rfl⟩ := claudeStep_cases h
  · simp [FormatMessage.expected, hrole]
  · rw [toolBlocks_addToolResult _ rfl, toolBlocks_opened]
    simp [FormatMessage.expected, hrole]
  rw [toolBlocks_append, toolBlocks_singleton, toolBlocks_opened, toolBlocks_claudeContent hcontent]
  cases hrole : m.role with
  | system => exact absurd hrole hsystem
  | tool => exact absurd hrole htool
  | user | assistant => simp [FormatMessage.expected, hrole]

theorem claudeRun_toolBlocks
    {ms : List (FormatMessage N)} (h : tryRun (claudeStep env) st ms = .ok st') :
    toolBlocks st'.messages = toolBlocks st.messages ++ ms.flatMap (FormatMessage.expected env) := by
  induction ms generalizing st with
  | nil =>
    cases h
    simp
  | cons m ms ih =>
    obtain ⟨t, ht, hrest⟩ := tryRun_cons_eq_ok.1 h
    rw [ih hrest, claudeStep_toolBlocks ht, flatMap_cons, List.append_assoc]

/-- The first message is the user's, and `isFirstMessage` says whether there is none. -/
structure UserFirst (st : ClaudeState N) : Prop where
  none : st.isFirst = true → st.messages = []
  first : st.isFirst = false → ∃ m rest, st.messages = m :: rest ∧ m.role = .user

theorem opened_first (h : UserFirst st) (role : Role) : (opened st role = [] ∧ role = .user) ∨
      ∃ m rest, opened st role = m :: rest ∧ m.role = .user := by
  unfold opened
  cases hfirst : st.isFirst with
  | true =>
    rw [h.none hfirst]
    by_cases hrole : role = .user
    · exact .inl ⟨by simp [hrole], hrole⟩
    · exact .inr ⟨placeholderUserMessage, [], by simp [hrole], rfl⟩
  | false =>
    right
    simpa using h.first hfirst

theorem addToolResult_first {messages : List (ClaudeMessage N)} (block : ClaudeMediaMessage N)
    (h : ∃ m rest, messages = m :: rest ∧ m.role = .user) :
    ∃ m rest, addToolResult messages block = m :: rest ∧ m.role = .user := by
  obtain ⟨m, rest, rfl, hm⟩ := h
  unfold addToolResult
  cases hlast : (m :: rest).getLast? with
  | none => simp at hlast
  | some last =>
    by_cases hrole : last.role = .user
    · simp only [hrole, if_true]
      cases rest with
      | nil => exact ⟨_, [], rfl, rfl⟩
      | cons n rest => exact ⟨m, _, by rw [List.dropLast_cons_cons]; rfl, hm⟩
    · simp only [hrole, if_false]
      exact ⟨m, _, rfl, hm⟩

theorem UserFirst.step
    (hst : UserFirst st) (h : claudeStep env st m = .ok st') : UserFirst st' := by
  obtain ⟨-, rfl⟩ | ⟨-, rfl⟩ | ⟨-, -, content, -, rfl⟩ := claudeStep_cases h
  · exact ⟨hst.none, hst.first⟩
  · refine ⟨nofun, fun _ => addToolResult_first _ ?_⟩
    obtain ⟨-, habsurd⟩ | hfirst := opened_first hst .tool
    · cases habsurd
    · exact hfirst
  refine ⟨nofun, fun _ => ?_⟩
  obtain ⟨hnone, hrole⟩ | ⟨first, rest, hopened, hrole⟩ := opened_first hst m.role
  · exact ⟨⟨m.role, content⟩, [], by simp [hnone], hrole⟩
  · exact ⟨first, rest ++ [⟨m.role, content⟩], by simp only [hopened, List.cons_append], hrole⟩

/-! ## Texts -/

def ClaudeMediaMessage.textOf : ClaudeMediaMessage N → Option String
  | text t => some t
  | _ => none

def texts : List String :=
  messages.flatMap fun m => m.content.toBlocks.filterMap ClaudeMediaMessage.textOf

@[simp] theorem texts_append (as bs : List (ClaudeMessage N)) : texts (as ++ bs) = texts as ++ texts bs := by
  simp [texts]

@[simp] theorem texts_singleton (m : ClaudeMessage N) :
    texts [m] = m.content.toBlocks.filterMap ClaudeMediaMessage.textOf := by
  simp [texts]

theorem texts_addToolResult (id : String) (content : Content N) :
    texts (addToolResult messages (.toolResult id content)) = texts messages := by
  unfold addToolResult
  cases hlast : messages.getLast? with
  | none => simp [ClaudeContent.toBlocks, ClaudeMediaMessage.textOf]
  | some last =>
    by_cases hrole : last.role = .user
    · have hsplit := getLast?_split hlast
      conv => rhs; rw [hsplit]
      simp [hrole, ClaudeContent.toBlocks, ClaudeMediaMessage.textOf]
    · simp [hrole, ClaudeContent.toBlocks, ClaudeMediaMessage.textOf]

theorem texts_opened_subset (st : ClaudeState N) (role : Role) :
    texts st.messages ⊆ texts (opened st role) := by
  unfold opened
  split_ifs
  · simp
  · exact List.Subset.refl _

variable {t : String}

theorem text_claudeContent {content : ClaudeContent N}
    (h : claudeContent env m = .ok content) (ht : m.content.stringContent = some t)
    (hne : t ≠ "") : t ∈ content.toBlocks.filterMap ClaudeMediaMessage.textOf := by
  have hcontent : m.content = .string t := by
    cases hm : m.content with
    | string s =>
      rw [hm] at ht
      exact congrArg Content.string (Option.some.inj ht)
    | null | media ms | list items | other v => simp [hm, Content.stringContent] at ht
  unfold claudeContent at h
  rw [hcontent] at h
  cases hcalls : m.toolCalls with
  | none =>
    rw [hcalls] at h
    cases h
    simp [hne, ClaudeContent.toBlocks, ClaudeMediaMessage.textOf]
  | some calls =>
    rw [hcalls] at h
    obtain ⟨media, hmedia, hok⟩ := bind_eq_ok.1 h
    cases hok
    have htext : media = [.text t] := by
      simp only [Content.parseContent, mediaBlocks, mediaBlock] at hmedia
      simpa [hne, bind, Except.bind] using hmedia.symm
    simp [htext, ClaudeContent.toBlocks, ClaudeMediaMessage.textOf]

def ClaudeState.allTexts (st : ClaudeState N) : List String := texts st.messages ++ st.system

theorem claudeStep_texts (h : claudeStep env st m = .ok st') : st.allTexts ⊆ st'.allTexts := by
  unfold ClaudeState.allTexts
  obtain ⟨-, rfl⟩ | ⟨-, rfl⟩ | ⟨-, -, content, -, rfl⟩ := claudeStep_cases h
  · intro t ht
    simp only [mem_append] at ht ⊢
    tauto
  · rw [texts_addToolResult]
    intro t ht
    obtain hmem | hmem := mem_append.1 ht
    · exact mem_append_left _ (texts_opened_subset st .tool hmem)
    · exact mem_append_right _ hmem
  intro t ht
  obtain hmem | hmem := mem_append.1 ht
  · rw [texts_append]
    exact mem_append_left _ (mem_append_left _ (texts_opened_subset st m.role hmem))
  · exact mem_append_right _ hmem

theorem claudeRun_texts {ms : List (FormatMessage N)}
    (h : tryRun (claudeStep env) st ms = .ok st') : st.allTexts ⊆ st'.allTexts := by
  induction ms generalizing st with
  | nil =>
    cases h
    exact List.Subset.refl _
  | cons m ms ih =>
    obtain ⟨t, ht, hrest⟩ := tryRun_cons_eq_ok.1 h
    exact List.Subset.trans (claudeStep_texts ht) (ih hrest)

theorem claudeStep_text (h : claudeStep env st m = .ok st') (hrole : m.role ≠ .tool)
    (ht : m.content.stringContent = some t) (hne : t ≠ "") : t ∈ st'.allTexts := by
  unfold ClaudeState.allTexts
  obtain ⟨-, rfl⟩ | ⟨htool, -⟩ | ⟨-, -, content, hcontent, rfl⟩ := claudeStep_cases h
  · simp [systemTexts, ht, hne]
  · exact absurd htool hrole
  · rw [texts_append, texts_singleton]
    exact mem_append_left _ (mem_append_right _ (text_claudeContent hcontent ht hne))

theorem claudeRun_text {ms : List (FormatMessage N)}
    (h : tryRun (claudeStep env) st ms = .ok st') (hm : m ∈ ms)
    (hrole : m.role ≠ .tool) (ht : m.content.stringContent = some t) (hne : t ≠ "") :
    t ∈ st'.allTexts := by
  obtain ⟨before, after, rfl⟩ := List.append_of_mem hm
  obtain ⟨s, -, hrest⟩ := tryRun_append_eq_ok.1 h
  obtain ⟨s', hstep, hafter⟩ := tryRun_cons_eq_ok.1 hrest
  exact claudeRun_texts hafter (claudeStep_text hstep hrole ht hne)

/-! ## The first loop -/

def Message.isText (m : Message N) : Bool := m.content.isNull || m.content.stringContent.isSome

/-- `b` right after `a` is fused with it. -/
def Fuses (a b : Message N) : Prop :=
  a.roleOf = b.roleOf ∧ a.roleOf ≠ .tool ∧ a.isText = true ∧ b.content.stringContent.isSome = true

instance (a b : Message N) : Decidable (Fuses a b) :=
  inferInstanceAs (Decidable (_ ∧ _ ∧ _ ∧ _))

/-- `f` is what the last round made of `a`. -/
structure FormatOf (a : Message N) (f : FormatMessage N) : Prop where
  role : f.role = a.roleOf
  toolCalls : f.toolCalls = a.format.toolCalls
  toolCallId : f.toolCallId = a.format.toolCallId
  text : f.content.stringContent.isSome = a.isText
  tool : a.roleOf = .tool → f.content = orDots a.content

theorem orDots_isSome (c : Content N) :
    (orDots c).stringContent.isSome = (c.isNull || c.stringContent.isSome) := by
  cases c with
  | string s =>
    by_cases hs : s = ""
    · simp [orDots, Content.isNull, Content.stringContent, hs]
    · simp [orDots, Content.isNull, Content.stringContent, hs]
  | null => rfl
  | media ms => rfl
  | list items => rfl
  | other v => rfl

variable {a : Message N} {f : FormatMessage N}

theorem FormatOf.expected (h : FormatOf a f) : f.expected env = a.expected env := by
  unfold FormatMessage.expected Message.expected Message.calls
  rw [h.role, h.toolCalls, h.toolCallId]
  cases hrole : a.roleOf with
  | tool => simp [Message.format, hrole, h.tool hrole]
  | assistant | user => simp [Message.format, hrole]
  | system => simp

variable {b : Message N}

theorem fusedContent_eq_none (h : FormatOf a f)
    (hfuses : ¬ Fuses a b) : fusedContent f b = none := by
  unfold fusedContent
  by_cases hrole : f.role = b.roleOf ∧ f.role ≠ .tool
  · rw [if_pos hrole]
    rw [h.role] at hrole
    have hnot : ¬ (a.isText = true ∧ b.content.stringContent.isSome = true) := fun hboth =>
      hfuses ⟨hrole.1, hrole.2, hboth⟩
    rw [← h.text] at hnot
    cases hs : f.content.stringContent with
    | none => rfl
    | some s =>
      cases ht : b.content.stringContent with
      | none => rfl
      | some t => exact absurd ⟨by rw [hs]; rfl, by rw [ht]; rfl⟩ hnot
  · rw [if_neg hrole]

theorem fusedContent_eq_some (h : FormatOf a f)
    (hfuses : Fuses a b) : ∃ s t, f.content.stringContent = some s ∧ b.content.stringContent = some t ∧
      fusedContent f b = some (s ++ " " ++ t) := by
  obtain ⟨hrole, htool, htext, hstring⟩ := hfuses
  rw [← h.text] at htext
  obtain ⟨s, hs⟩ := Option.isSome_iff_exists.1 htext
  obtain ⟨t, ht⟩ := Option.isSome_iff_exists.1 hstring
  refine ⟨s, t, hs, ht, ?_⟩
  unfold fusedContent
  rw [h.role, if_pos ⟨hrole, htool⟩, hs, ht]

theorem formatOf_dots (m : Message N) : FormatOf m { m.format with content := orDots m.content } where
  role := rfl
  toolCalls := rfl
  toolCallId := rfl
  text := orDots_isSome m.content
  tool _ := rfl

theorem formatOf_fused {m : Message N} (htool : m.roleOf ≠ .tool)
    (ht : m.content.stringContent = some t) (s : String) :
    FormatOf m { m.format with content := orDots (.string s) } where
  role := rfl
  toolCalls := rfl
  toolCallId := rfl
  text := by
    have hstring : (orDots (N := N) (.string s)).stringContent.isSome = true := by
      rw [orDots_isSome]
      rfl
    have htext : m.isText = true := by simp [Message.isText, ht]
    exact hstring.trans htext.symm
  tool hrole := absurd hrole htool

theorem formatStep_cases (h : FormatOf a f) (init : List (FormatMessage N)) : ∃ g, FormatOf b g ∧
      ((¬ Fuses a b ∧ formatStep (init ++ [f], f) b = ((init ++ [f]) ++ [g], g) ∧
          g.content = orDots b.content) ∨
        (Fuses a b ∧ formatStep (init ++ [f], f) b = (init ++ [g], g) ∧
          ∃ s t, f.content.stringContent = some s ∧ b.content.stringContent = some t ∧
            g.content = .string (s ++ " " ++ t))) := by
  by_cases hfuses : Fuses a b
  · obtain ⟨s, t, hs, ht, hfused⟩ := fusedContent_eq_some h hfuses
    have htool : b.roleOf ≠ .tool := hfuses.1 ▸ hfuses.2.1
    have hne : s ++ " " ++ t ≠ "" := by
      intro hempty
      have hlength := congrArg (fun x => x.toList.length) hempty
      simp only [String.toList_append, length_append, String.toList_empty, List.length_nil] at hlength
      have hspace : (" ".toList).length = 1 := rfl
      omega
    have hdots : orDots (N := N) (.string (s ++ " " ++ t)) = .string (s ++ " " ++ t) := by
      unfold orDots
      rw [if_neg]
      rintro (hnull | hempty)
      · cases hnull
      · exact hne (Option.some.inj hempty)
    refine ⟨_, formatOf_fused htool ht (s ++ " " ++ t), .inr ⟨hfuses, ?_, s, t, hs, ht, hdots⟩⟩
    unfold formatStep
    rw [hfused]
    simp
  refine ⟨_, formatOf_dots b, .inl ⟨hfuses, ?_, rfl⟩⟩
  unfold formatStep
  rw [fusedContent_eq_none h hfuses]

/-- The tool blocks that are left of `a` and the messages after it. -/
def keptFrom (env : ClaudeEnv N) (a : Message N) : List (Message N) → List (ClaudeMediaMessage N)
  | [] => a.expected env
  | b :: rest => (if Fuses a b then [] else a.expected env) ++ keptFrom env b rest

variable (env)

theorem format_kept (h : FormatOf a f) (init : List (FormatMessage N)) (rest : List (Message N)) :
    (rest.foldl formatStep (init ++ [f], f)).1.flatMap (FormatMessage.expected env) =
      init.flatMap (FormatMessage.expected env) ++ keptFrom env a rest := by
  induction rest generalizing a f init with
  | nil => simp [keptFrom, h.expected]
  | cons b rest ih =>
    obtain ⟨g, hg, ⟨hfuses, hstep, -⟩ | ⟨hfuses, hstep, -⟩⟩ := formatStep_cases (b := b) h init
    · rw [foldl_cons, hstep, ih hg]
      simp [keptFrom, hfuses, h.expected]
    · rw [foldl_cons, hstep, ih hg]
      simp [keptFrom, hfuses]

/-- `a` has tool calls that are lost because `b` is fused with it. -/
def Drops (a b : Message N) : Prop := Fuses a b ∧ a.calls ≠ []

theorem keptFrom_length_le (a : Message N) (rest : List (Message N)) :
    (keptFrom env a rest).length ≤ ((a :: rest).flatMap (Message.expected env)).length := by
  induction rest generalizing a with
  | nil => simp [keptFrom]
  | cons b rest ih =>
    have hrest := ih b
    rw [flatMap_cons, length_append, keptFrom, length_append]
    split_ifs
    · simp only [List.length_nil]
      omega
    · omega

theorem keptFrom_eq_iff (a : Message N) (rest : List (Message N)) :
    keptFrom env a rest = (a :: rest).flatMap (Message.expected env) ↔
      (a :: rest).IsChain fun a b => ¬ Drops a b := by
  induction rest generalizing a with
  | nil => simp [keptFrom]
  | cons b rest ih =>
    rw [List.isChain_cons_cons, ← ih b, flatMap_cons, keptFrom]
    by_cases hfuses : Fuses a b
    · have hexpected : a.expected env = a.calls.map (toolUse env) := if_neg hfuses.2.1
      by_cases hcalls : a.calls = []
      · simp [Drops, hexpected, hcalls]
      refine ⟨fun heq => ?_, fun h => absurd ⟨hfuses, hcalls⟩ h.1⟩
      have hle := keptFrom_length_le env b rest
      have hlength := congrArg List.length heq
      have hpos := List.length_pos_iff.2 hcalls
      simp only [if_pos hfuses, List.nil_append, length_append, hexpected,
        List.length_map] at hlength
      omega
    · simp [Drops, hfuses]

/-- A non-empty string content of `m` is in the string content of one of the messages. -/
def Carries (fs : List (FormatMessage N)) (m : Message N) : Prop :=
  ∀ s, m.content.stringContent = some s → s ≠ "" → m.roleOf ≠ .tool →
    ∃ g ∈ fs, g.role ≠ .tool ∧ ∃ t, g.content.stringContent = some t ∧ s.toList <:+: t.toList

theorem Carries.mono {fs gs : List (FormatMessage N)} {m : Message N} (h : Carries fs m)
    (hsub : fs ⊆ gs) : Carries gs m := by
  intro s hs hne hrole
  obtain ⟨g, hg, hrest⟩ := h s hs hne hrole
  exact ⟨g, hsub hg, hrest⟩

theorem orDots_of_ne {c : Content N} {s : String} (hs : c.stringContent = some s) (hne : s ≠ "") :
    (orDots c).stringContent = some s := by
  unfold orDots
  rw [if_neg, hs]
  rintro (hnull | hempty)
  · cases c <;> simp_all [Content.isNull, Content.stringContent]
  · rw [hs] at hempty
    exact hne (Option.some.inj hempty)

theorem carries_own {fs : List (FormatMessage N)} {m : Message N} {g : FormatMessage N} (hg : g ∈ fs)
    (h : FormatOf m g) (hcontent : g.content = orDots m.content) : Carries fs m := by
  intro s hs hne hrole
  refine ⟨g, hg, h.role ▸ hrole, s, ?_, List.infix_refl _⟩
  rw [hcontent]
  exact orDots_of_ne hs hne

theorem carries_step (h : FormatOf a f) (init : List (FormatMessage N)) : ∃ init' g, FormatOf b g ∧
      formatStep (init ++ [f], f) b = (init' ++ [g], g) ∧ Carries (init' ++ [g]) b ∧
      ∀ m, Carries (init ++ [f]) m → Carries (init' ++ [g]) m := by
  obtain ⟨g, hg, ⟨-, hstep, hcontent⟩ | ⟨hfuses, hstep, s, t, hs, ht, hcontent⟩⟩ :=
    formatStep_cases (b := b) h init
  · refine ⟨init ++ [f], g, hg, hstep, carries_own (by simp) hg hcontent, fun m hm => ?_⟩
    exact hm.mono (List.subset_append_left _ _)
  have htool : g.role ≠ .tool := by
    rw [hg.role]
    exact hfuses.1 ▸ hfuses.2.1
  have hstring : g.content.stringContent = some (s ++ " " ++ t) := by
    rw [hcontent]
    rfl
  refine ⟨init, g, hg, hstep, ?_, fun m hm => ?_⟩
  · intro s' hs' hne hrole
    rw [ht] at hs'
    cases hs'
    refine ⟨g, by simp, htool, _, hstring, ?_⟩
    simp only [String.toList_append]
    exact (List.suffix_append _ _).isInfix
  intro s' hs' hne hrole
  obtain ⟨k, hk, hkrole, u, hu, hinfix⟩ := hm s' hs' hne hrole
  obtain hmem | hmem := mem_append.1 hk
  · exact ⟨k, mem_append_left _ hmem, hkrole, u, hu, hinfix⟩
  -- it was carried by the message that is taken out
  rw [List.mem_singleton.1 hmem, hs] at hu
  cases hu
  refine ⟨g, by simp, htool, _, hstring, ?_⟩
  simp only [String.toList_append, List.append_assoc]
  exact hinfix.trans (List.prefix_append _ _).isInfix

theorem format_carries (h : FormatOf a f)
    (init : List (FormatMessage N)) (rest : List (Message N)) :
    (∀ m, Carries (init ++ [f]) m → Carries (rest.foldl formatStep (init ++ [f], f)).1 m) ∧
      ∀ m ∈ rest, Carries (rest.foldl formatStep (init ++ [f], f)).1 m := by
  induction rest generalizing a f init with
  | nil => exact ⟨fun m hm => hm, fun m hm => absurd hm List.not_mem_nil⟩
  | cons b rest ih =>
    obtain ⟨init', g, hg, hstep, hb, hkept⟩ := carries_step (b := b) h init
    obtain ⟨hold, hnew⟩ := ih hg init'
    rw [foldl_cons, hstep]
    refine ⟨fun m hm => hold m (hkept m hm), fun m hm => ?_⟩
    obtain rfl | hmem := mem_cons.1 hm
    · exact hold _ hb
    · exact hnew m hmem

theorem formatStep_first (a : Message N) : ∃ g, FormatOf a g ∧ g.content = orDots a.content ∧
    formatStep ([], { role := .tool }) a = ([] ++ [g], g) := by
  refine ⟨_, formatOf_dots a, rfl, ?_⟩
  have hnone : fusedContent { role := .tool } a = none := by
    unfold fusedContent
    rw [if_neg fun h => h.2 rfl]
  unfold formatStep
  rw [hnone]

theorem formatMessages_expected (messages : List (Message N)) :
    (formatMessages messages).flatMap (FormatMessage.expected env) =
        messages.flatMap (Message.expected env) ↔ messages.IsChain fun a b => ¬ Drops a b := by
  cases messages with
  | nil => simp [formatMessages]
  | cons a rest =>
    obtain ⟨g, hg, -, hfirst⟩ := formatStep_first a
    unfold formatMessages
    rw [foldl_cons, hfirst, format_kept env hg, List.flatMap_nil, List.nil_append]
    exact keptFrom_eq_iff env a rest

variable {env}

theorem formatMessages_carries {messages : List (Message N)} {m : Message N} (hm : m ∈ messages) :
    Carries (formatMessages messages) m := by
  cases messages with
  | nil => exact absurd hm List.not_mem_nil
  | cons a rest =>
    obtain ⟨g, hg, hcontent, hfirst⟩ := formatStep_first a
    obtain ⟨hold, hnew⟩ := format_carries hg [] rest
    unfold formatMessages
    rw [foldl_cons, hfirst]
    obtain rfl | hmem := mem_cons.1 hm
    · exact hold _ (carries_own (by simp) hg hcontent)
    · exact hnew m hmem

/-! ## The request -/

/-- What the Claude messages and the system list keep of the chat messages: one block
    for every tool call and tool result, in order; every non-empty string content, that
    of a tool message being in its tool result; and a first message of the user's. -/
structure Keeps (env : ClaudeEnv N) (messages : List (Message N))
    (out : List (ClaudeMessage N) × List String) : Prop where
  tools : toolBlocks out.1 = messages.flatMap (Message.expected env)
  strings : ∀ m ∈ messages, ∀ s, m.content.stringContent = some s → s ≠ "" → m.roleOf ≠ .tool →
    ∃ t ∈ texts out.1 ++ out.2, s.toList <:+: t.toList
  first : ∀ m ∈ out.1.head?, m.role = .user

def orPlaceholder (st : ClaudeState N) : List (ClaudeMessage N) :=
  if st.messages = [] ∧ st.system ≠ [] then [placeholderUserMessage] else st.messages

theorem claudeMessages_eq_ok {messages : List (Message N)}
    {out : List (ClaudeMessage N) × List String} (h : claudeMessages env messages = .ok out) :
    ∃ st, tryRun (claudeStep env) {} (formatMessages messages) = .ok st ∧
      out = (orPlaceholder st, st.system) := by
  obtain ⟨st, hrun, hok⟩ := bind_eq_ok.1 h
  exact ⟨st, hrun, (Except.ok.inj hok).symm⟩

theorem toolBlocks_orPlaceholder (st : ClaudeState N) :
    toolBlocks (orPlaceholder st) = toolBlocks st.messages := by
  unfold orPlaceholder
  by_cases h : st.messages = [] ∧ st.system ≠ []
  · rw [if_pos h, h.1]
    rfl
  · rw [if_neg h]

theorem texts_orPlaceholder_subset (st : ClaudeState N) : texts st.messages ⊆ texts (orPlaceholder st) := by
  unfold orPlaceholder
  by_cases h : st.messages = [] ∧ st.system ≠ []
  · rw [if_pos h, h.1]
    exact List.nil_subset _
  · rw [if_neg h]
    exact List.Subset.refl _

/-- **A request keeps its tool calls, tool results and texts** if and only if no
    assistant's message with tool calls and text (or nothing) as its content is followed
    by an assistant's message whose content is a string. -/
theorem claudeMessages_keeps_iff {env : ClaudeEnv N} {messages : List (Message N)}
    {out : List (ClaudeMessage N) × List String} (h : claudeMessages env messages = .ok out) :
    Keeps env messages out ↔ messages.IsChain fun a b => ¬ Drops a b := by
  obtain ⟨st, hrun, rfl⟩ := claudeMessages_eq_ok h
  have htools : toolBlocks st.messages = (formatMessages messages).flatMap (FormatMessage.expected env) :=
    claudeRun_toolBlocks hrun
  constructor
  · intro hkeeps
    rw [← formatMessages_expected env, ← htools, ← toolBlocks_orPlaceholder]
    exact hkeeps.tools
  intro hchain
  refine ⟨?_, fun m hm s hs hne hrole => ?_, fun m hm => ?_⟩
  · rw [toolBlocks_orPlaceholder, htools]
    exact (formatMessages_expected env messages).2 hchain
  · obtain ⟨g, hg, hgrole, t, ht, hinfix⟩ := formatMessages_carries hm s hs hne hrole
    have hnonempty : t ≠ "" := by
      rintro rfl
      have hnil : s.toList = [] := by simpa using hinfix
      exact hne (by simpa using hnil)
    refine ⟨t, ?_, hinfix⟩
    obtain hmem | hmem := mem_append.1 (claudeRun_text hrun hg hgrole ht hnonempty)
    · exact mem_append_left _ (texts_orPlaceholder_subset st hmem)
    · exact mem_append_right _ hmem
  have hfirst : UserFirst st := by
    have hinit : UserFirst ({} : ClaudeState N) := ⟨fun _ => rfl, nofun⟩
    exact tryRun_invariant_all UserFirst (fun _ _ _ hst hstep => hst.step hstep) hinit hrun
  have hm' : m ∈ (orPlaceholder st).head? := hm
  unfold orPlaceholder at hm'
  split_ifs at hm' with hempty
  · cases hm'
    rfl
  cases hisFirst : st.isFirst with
  | true =>
    rw [hfirst.none hisFirst] at hm'
    cases hm'
  | false =>
    obtain ⟨n, rest, hmessages, hrole⟩ := hfirst.first hisFirst
    rw [hmessages] at hm'
    cases hm'
    exact hrole

def plainEnv : ClaudeEnv Unit where
  resolveBase64Data _ := .error "no file"
  decodeArguments _ := .object []

def askWeather : ToolCallRequest := ⟨"call_1", "weather", "\x7b\x7d"⟩

theorem weather_kept : ∃ out, claudeMessages plainEnv
        [{ role := "user", content := .string "How is it?" },
          { role := "assistant", toolCalls := some [askWeather] },
          { role := "tool", content := .string "Sunny", toolCallId := "call_1" }] = .ok out ∧
      Keeps plainEnv
        [{ role := "user", content := .string "How is it?" },
          { role := "assistant", toolCalls := some [askWeather] },
          { role := "tool", content := .string "Sunny", toolCallId := "call_1" }] out :=
  ⟨_, rfl, (claudeMessages_keeps_iff rfl).2 (by
    rw [List.isChain_cons_cons, List.isChain_cons_cons]
    exact ⟨fun h => absurd h.1.1 (by decide), fun h => absurd h.1.1 (by decide), .singleton _⟩)⟩

/-- An assistant's message with a tool call, and one more of the assistant. -/
def twoReplies : List (Message Unit) :=
  [{ role := "assistant", content := .string "Let me see.", toolCalls := some [askWeather] },
    { role := "assistant", content := .string "One moment." }]

theorem twoReplies_not_kept :
    ∃ out, claudeMessages plainEnv twoReplies = .ok out ∧ ¬ Keeps plainEnv twoReplies out := by
  refine ⟨([placeholderUserMessage, ⟨.assistant, .string "Let me see. One moment."⟩], []), rfl, ?_⟩
  intro h
  have hlength := congrArg List.length h.tools
  exact absurd hlength (by decide)

end NewApi.ChatRequest
