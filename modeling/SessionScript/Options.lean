import SessionScript.Json.Shape

/-!
# Options of script generation

All options have defaults, and a document or a settings file gives only those that differ.
-/

namespace SessionScript

open Json (Shape Decoder)

/-- How scripts are generated and presented. -/
structure Options where
  /-- Put the script into an asynchronous function that calls itself. -/
  wrapAsync : Bool := false
  /-- Start the browser without a window. -/
  headless : Bool := true
  /-- Declare a promise of the next navigation and await it at each navigation. -/
  waitForNavigation : Bool := true
  /-- Wait for the element before each click. -/
  waitForSelectorOnClick : Bool := true
  /-- Put an empty line between statements. -/
  blankLinesBetweenBlocks : Bool := true
  /-- The attribute that selectors prefer; scripts do not depend on it. -/
  dataAttribute : String := ""
  /-- Which of the two scripts is presented first. -/
  showPlaywrightFirst : Bool := true
  /-- The key of a keystroke that recorded none. -/
  key : String := "Tab"
  /-- Wait until the network is idle after each click, where the library can. -/
  waitForNetworkIdleAfterClick : Bool := false
  deriving DecidableEq

namespace Options

/-- The document of the options. -/
def toJson (o : Options) : Json :=
  .obj
    [ ("wrapAsync", .bool o.wrapAsync),
      ("headless", .bool o.headless),
      ("waitForNavigation", .bool o.waitForNavigation),
      ("waitForSelectorOnClick", .bool o.waitForSelectorOnClick),
      ("blankLinesBetweenBlocks", .bool o.blankLinesBetweenBlocks),
      ("dataAttribute", .str o.dataAttribute),
      ("showPlaywrightFirst", .bool o.showPlaywrightFirst),
      ("key", .str o.key),
      ("waitForNetworkIdleAfterClick", .bool o.waitForNetworkIdleAfterClick) ]

/-- The form of the options. -/
def shape : Shape Options where
  title := "struct GeneratorOptions"
  blank := {}
  fields :=
    [ .optional "wrapAsync" Decoder.bool fun v o => { o with wrapAsync := v },
      .optional "headless" Decoder.bool fun v o => { o with headless := v },
      .optional "waitForNavigation" Decoder.bool fun v o => { o with waitForNavigation := v },
      .optional "waitForSelectorOnClick" Decoder.bool
        fun v o => { o with waitForSelectorOnClick := v },
      .optional "blankLinesBetweenBlocks" Decoder.bool
        fun v o => { o with blankLinesBetweenBlocks := v },
      .optional "dataAttribute" Decoder.string fun v o => { o with dataAttribute := v },
      .optional "showPlaywrightFirst" Decoder.bool fun v o => { o with showPlaywrightFirst := v },
      .optional "key" Decoder.string fun v o => { o with key := v },
      .optional "waitForNetworkIdleAfterClick" Decoder.bool
        fun v o => { o with waitForNetworkIdleAfterClick := v } ]

/-- Decode options from a document. -/
def ofJson (v : Json) : Except Json.Cause Options := shape.ofJson v

end Options

end SessionScript
