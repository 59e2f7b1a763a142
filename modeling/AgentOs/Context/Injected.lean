import AgentOs.Lib.Gathering
import AgentOs.Policy.Composite

/-!
Injected context (`context.py`).

Providers are asked in turn, each with what remains of the budget. What one returns becomes blocks,
and a block is framed by its source; its title is shown where there is room for it, its content is
cut, and a block whose frame has no room ends the blocks of its provider.

What a dictionary holds is of any type `V`, of which the code uses the truth value and the text.
-/

namespace AgentOs

open AgentOs.Lib

/-- Who a run acts for. -/
structure Principal where
  id : String
  kind : String
  display : String
deriving DecidableEq, Repr

/-- A discrete block of context. -/
structure ContextBlock where
  source : String
  content : String
  title : Option String := none
deriving DecidableEq, Repr

section

variable (V : Type)

/-- An item of a list that a provider returns. -/
inductive RawItem where
  | block (block : ContextBlock)
  /-- with what `get` finds under the keys that are read -/
  | dict (source content title : Option V)
  | text (s : String)
  | other

/-- What a provider returns. -/
inductive RawContext where
  | text (s : String)
  | block (block : ContextBlock)
  | items (items : List (RawItem V))
  | other

/-- How a call of a provider ends. -/
inductive Provided where
  | timedOut
  | raised (exc : String)
  | returned (raw : RawContext V)

/-- A context provider. -/
structure ContextProvider where
  name : String
  provide (task : String) (budgetChars : Int) (principal : Principal) (workspaceId : String) :
    Provided V

/-- The truth value and the text of a value. -/
structure ValueReading where
  truthy : V → Bool
  str : V → String

end

/-- What a context event records. -/
structure ContextEvent where
  provider : String
  source : String
  title : Option String
  chars : Nat
deriving DecidableEq, Repr

/-- What `load_injected_context` is called with. -/
structure ContextCall where
  task : String
  maxChars : Int := 8000
  policy : Option PolicyPlugin := none
  runId : Option String := none
  principal : Option Principal := none
  workspaceId : Option String := none

/-- What the loader asks of the outside, each `none` where it fails. -/
structure ContextWorld where
  /-- the creator and its kind, of a run that is found -/
  getRun : String → Option (Option String × Option String)
  /-- `LocalPrincipalResolver().resolve()` -/
  localPrincipal : Option Principal
  /-- `observation_workspace_id` of the workspace, where there is one -/
  observationWorkspaceId : Option String

/-- `_principal_for_run` -/
def principalForRun (world : ContextWorld) (runId : Option String) : Option Principal := do
  let runId ← runId.filter (· ≠ "")
  let (createdBy, createdByKind) ← world.getRun runId
  let principalId ← createdBy.filter (· ≠ "")
  return ⟨principalId, (createdByKind.filter (· ≠ "")).getD "system", principalId⟩

/-- The principal that the providers are asked for. -/
def contextPrincipal (world : ContextWorld) (call : ContextCall) : Principal :=
  (call.principal <|> principalForRun world call.runId <|> world.localPrincipal).getD
    ⟨"local:unknown", "human", "operator"⟩

/-- The workspace that the providers are asked for. -/
def contextWorkspaceId (world : ContextWorld) (call : ContextCall) : String :=
  match call.workspaceId with
  | some workspaceId => workspaceId
  | none => (world.observationWorkspaceId.filter (· ≠ "")).getD "default"

/-! ### Blocks -/

section

variable {V : Type} (reading : ValueReading V)

/-- A text as a block of its provider. -/
def textBlocks (providerName s : String) : List ContextBlock :=
  if Text.strip s = "" then [] else [{ source := providerName, content := Text.strip s }]

/-- The blocks of an item of a list. -/
def itemBlocks (providerName : String) : RawItem V → List ContextBlock
  | .block block => [block]
  | .dict source content title =>
      let src := ((source.filter reading.truthy).map reading.str).getD providerName
      let cnt := ((content.filter reading.truthy).map reading.str).getD ""
      if Text.strip cnt = "" then []
      else
        [{ source := src
           content := Text.strip cnt
           title := (title.filter reading.truthy).map reading.str }]
  | .text s => textBlocks providerName s
  | .other => []

/-- The blocks of what a provider returns. -/
def normalizeContext (providerName : String) : RawContext V → List ContextBlock
  | .text s => textBlocks providerName s
  | .block block => [block]
  | .items items => items.flatMap (itemBlocks reading providerName)
  | .other => []

/-! ### Frames -/

/-- The header of a frame, with a title or without. -/
def contextHeader (source : String) : Option String → String
  | some title => "--- BEGIN CONTEXT [" ++ source ++ ": " ++ title ++ "] ---"
  | none => "--- BEGIN CONTEXT [" ++ source ++ "] ---"

theorem contextHeader_none (source : String) :
    contextHeader source none = "--- BEGIN CONTEXT [" ++ source ++ "] ---" := rfl

theorem contextHeader_some (source title : String) : contextHeader source (some title) =
    "--- BEGIN CONTEXT [" ++ source ++ ": " ++ title ++ "] ---" := rfl

def contextFooter (source : String) : String := "--- END CONTEXT [" ++ source ++ "] ---"

/-- A block's frame within what remains of a budget, if there is room for it. -/
def formatBlock (remaining : Int) (block : ContextBlock) : Option String :=
  let title := block.title.filter (· ≠ "")
  let footer := contextFooter block.source
  let envelopeLen (header : String) : Int := header.length + footer.length + 3
  let header :=
    if remaining < envelopeLen (contextHeader block.source title) then contextHeader block.source none
    else contextHeader block.source title
  if remaining < envelopeLen header then none
  else
    let contentBudget := remaining - envelopeLen header
    some (header ++ "\n" ++ Text.sliceTo block.content contentBudget ++ "\n" ++ footer ++ "\n")

/-- What the loader has gathered, and the events that it has tried to record. -/
structure Loading where
  gathered : Gathered := {}
  events : List ContextEvent := []

/-- The blocks of a provider in turn. -/
def addBlocks (call : ContextCall) (providerName : String) : Loading → List ContextBlock → Loading
  | s, [] => s
  | s, block :: blocks =>
      if block.content = "" then addBlocks call providerName s blocks
      else
        let remaining := s.gathered.remaining call.maxChars
        if remaining ≤ 0 then s
        else
          match formatBlock remaining block with
          | none => s
          | some formatted =>
              let event : ContextEvent :=
                ⟨providerName, block.source, block.title, block.content.length⟩
              addBlocks call providerName
                { gathered := s.gathered.add formatted
                  events := s.events ++
                    if (call.runId.filter (· ≠ "")).isSome then [event] else [] }
                blocks

/-- Does the policy deny a provider, or raise? -/
def contextDenied (call : ContextCall) (providerName : String) : Bool :=
  match call.policy with
  | none => false
  | some policy =>
      let proposal : ActionProposal :=
        { tool := "context_provider:" ++ providerName
          sideEffect := .read
          arguments := [("task", .str call.task), ("provider", .str providerName)] }
      match policy proposal with
      | .error _ => true
      | .ok decision => decision.decision = .deny

/-- The providers in turn. -/
def askProviders (world : ContextWorld) (call : ContextCall) :
    Loading → List (ContextProvider V) → Loading
  | s, [] => s
  | s, provider :: providers =>
      let remainingBudget := s.gathered.remaining call.maxChars
      if remainingBudget ≤ 0 then s
      else if contextDenied call provider.name then askProviders world call s providers
      else
        match provider.provide call.task remainingBudget (contextPrincipal world call)
            (contextWorkspaceId world call) with
        | .timedOut => askProviders world call s providers
        | .raised _ => askProviders world call s providers
        | .returned raw =>
            askProviders world call
              (addBlocks call provider.name s (normalizeContext reading provider.name raw))
              providers

/-- `load_injected_context`: the text, and the events. -/
def loadInjectedContext (world : ContextWorld) (call : ContextCall)
    (providers : List (ContextProvider V)) : String × List ContextEvent :=
  if providers = [] ∨ call.maxChars ≤ 0 then ("", [])
  else
    let s := askProviders reading world call {} providers
    (s.gathered.text, s.events)

end

/-! ### Complete frames -/

/-- A header, a content and a footer. -/
structure ContextFrame where
  source : String
  title : Option String
  content : String
deriving DecidableEq, Repr

namespace ContextFrame

/-- Up to the end of the footer. -/
def body (f : ContextFrame) : String :=
  contextHeader f.source f.title ++ "\n" ++ f.content ++ "\n" ++ contextFooter f.source

/-- A frame as it is written. -/
def text (f : ContextFrame) : String := f.body ++ "\n"

/-- The frame of a block, perhaps without its title, around the start of its content. -/
structure Shows (f : ContextFrame) (block : ContextBlock) : Prop where
  source : f.source = block.source
  title : f.title = none ∨ f.title = block.title
  content : f.content.toList <+: block.content.toList

theorem text_length (f : ContextFrame) : f.text.length =
    (contextHeader f.source f.title).length + (contextFooter f.source).length + 3 +
      f.content.length := by
  have one : "\n".length = 1 := rfl
  simp only [text, body, String.length_append]
  omega

theorem text_ne_empty (f : ContextFrame) : f.text ≠ "" := by
  intro none
  have length := f.text_length
  rw [none] at length
  have zero : "".length = 0 := rfl
  omega

end ContextFrame

/-- A formatted block is a frame that fits what remains. -/
theorem formatBlock_eq_some {remaining : Int} {block : ContextBlock} {formatted : String}
    (found : formatBlock remaining block = some formatted) :
    ∃ f : ContextFrame, f.Shows block ∧ formatted = f.text ∧ (f.text.length : Int) ≤ remaining := by
  -- the header that is shown, with the room that its frame leaves
  have framed : ∀ shown : Option String, (shown = none ∨ shown = block.title) →
      ¬ remaining < (contextHeader block.source shown).length +
        (contextFooter block.source).length + 3 →
      formatted = contextHeader block.source shown ++ "\n" ++
        Text.sliceTo block.content (remaining - ((contextHeader block.source shown).length +
          (contextFooter block.source).length + 3)) ++ "\n" ++
        contextFooter block.source ++ "\n" →
      ∃ f : ContextFrame, f.Shows block ∧ formatted = f.text ∧
        (f.text.length : Int) ≤ remaining := by
    intro shown title room written
    let f : ContextFrame := ⟨block.source, shown, Text.sliceTo block.content
      (remaining - ((contextHeader block.source shown).length +
        (contextFooter block.source).length + 3))⟩
    refine ⟨f, ⟨rfl, title, Text.sliceTo_prefix _ _⟩, written, ?_⟩
    have content := Text.sliceTo_length_le block.content (Int.sub_nonneg.mpr (Int.not_lt.mp room))
    have length := f.text_length
    simp only [f] at length ⊢
    omega
  have title : block.title.filter (· ≠ "") = none ∨ block.title.filter (· ≠ "") = block.title := by
    cases block.title with
    | none => exact .inl rfl
    | some title =>
        rw [Option.filter_some]
        split
        · exact .inr rfl
        · exact .inl rfl
  simp only [formatBlock] at found
  split at found
  · -- no room for the title
    split at found
    · cases found
    · rename_i room
      exact framed none (.inl rfl) room (Option.some.inj found).symm
  · rename_i room
    exact framed _ title room (Option.some.inj found).symm

/-! ### The loops -/

/-- What has been gathered is within the budget, and every text is the frame of a block that
`given` holds of. -/
structure Loading.Inv (maxChars : Int) (given : ContextBlock → Prop) (s : Loading) : Prop where
  within : s.gathered.Within maxChars
  framed : ∃ frames : List ContextFrame,
    s.gathered.contentParts = frames.map ContextFrame.text ∧
      ∀ f ∈ frames, ∃ block, given block ∧ f.Shows block

section

variable {call : ContextCall} {given : ContextBlock → Prop} {s : Loading}

theorem Loading.Inv.start (budget : 0 ≤ call.maxChars) :
    ({} : Loading).Inv call.maxChars given where
  within := .nil budget
  framed := ⟨[], rfl, fun _ mem => by cases mem⟩

/-- The frame of one more block. -/
theorem Loading.Inv.add (inv : s.Inv call.maxChars given) {block : ContextBlock}
    {formatted : String} {events : List ContextEvent} (is : given block)
    (found : formatBlock (s.gathered.remaining call.maxChars) block = some formatted) :
    Loading.Inv call.maxChars given ⟨s.gathered.add formatted, events⟩ := by
  obtain ⟨f, shows, rfl, fits⟩ := formatBlock_eq_some found
  obtain ⟨frames, parts, framed⟩ := inv.framed
  refine ⟨inv.within.add f.text_ne_empty fits, frames ++ [f], ?_, ?_⟩
  · rw [Gathered.add, parts, List.map_append, List.map_singleton]
  · intro g mem
    rcases List.mem_append.mp mem with before | last
    · exact framed g before
    · rw [List.mem_singleton.mp last]
      exact ⟨block, is, shows⟩

theorem addBlocks_inv {providerName : String} {blocks : List ContextBlock}
    (inv : s.Inv call.maxChars given) (all : ∀ block ∈ blocks, given block) :
    (addBlocks call providerName s blocks).Inv call.maxChars given := by
  induction blocks generalizing s with
  | nil => exact inv
  | cons block blocks ih =>
      have rest : ∀ block ∈ blocks, given block := fun b mem => all b (List.mem_cons_of_mem _ mem)
      rw [addBlocks]
      split
      · exact ih inv rest
      · dsimp only
        split
        · exact inv
        · split
          · exact inv
          · rename_i formatted found
            exact ih (inv.add (all block List.mem_cons_self) found) rest

variable {V : Type} {reading : ValueReading V} {world : ContextWorld}

/-- A block that one of the providers returns, asked with some budget. -/
def ReturnedBy (reading : ValueReading V) (world : ContextWorld) (call : ContextCall)
    (providers : List (ContextProvider V)) (block : ContextBlock) : Prop :=
  ∃ provider ∈ providers, ∃ budget raw,
    provider.provide call.task budget (contextPrincipal world call)
        (contextWorkspaceId world call) = .returned raw ∧
      block ∈ normalizeContext reading provider.name raw

theorem askProviders_inv {providers : List (ContextProvider V)} (inv : s.Inv call.maxChars given)
    (all : ∀ block, ReturnedBy reading world call providers block → given block) :
    (askProviders reading world call s providers).Inv call.maxChars given := by
  induction providers generalizing s with
  | nil => exact inv
  | cons provider providers ih =>
      have rest : ∀ block, ReturnedBy reading world call providers block → given block := by
        rintro block ⟨other, mem, returned⟩
        exact all block ⟨other, List.mem_cons_of_mem _ mem, returned⟩
      rw [askProviders]
      split
      · exact inv
      split
      · exact ih inv rest
      split
      · exact ih inv rest
      · exact ih inv rest
      · rename_i raw returned
        refine ih (addBlocks_inv inv fun block mem => all block ?_) rest
        exact ⟨provider, List.mem_cons_self, _, raw, returned, mem⟩

/-- What the loader returns: complete frames within the budget. -/
theorem loadInjectedContext_framed (providers : List (ContextProvider V))
    (budget : 0 ≤ call.maxChars) :
    ((loadInjectedContext reading world call providers).1.length : Int) ≤ call.maxChars ∧
      ∃ frames : List ContextFrame,
        (loadInjectedContext reading world call providers).1 =
            Text.join "\n" (frames.map ContextFrame.text) ∧
          ∀ f ∈ frames, ∃ block, ReturnedBy reading world call providers block ∧ f.Shows block := by
  unfold loadInjectedContext
  split
  · exact ⟨budget, [], rfl, fun _ mem => by cases mem⟩
  · have inv : (askProviders reading world call {} providers).Inv call.maxChars
        (ReturnedBy reading world call providers) :=
      askProviders_inv (.start budget) fun _ returned => returned
    obtain ⟨frames, parts, framed⟩ := inv.framed
    refine ⟨?_, frames, ?_, framed⟩
    · have fits := inv.within.fits
      rw [inv.within.counted] at fits
      exact fits
    · exact congrArg (Text.join "\n") parts

end

end AgentOs
