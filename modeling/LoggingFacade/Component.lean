import LoggingFacade.Appender
import LoggingFacade.Declaration

/-!
# Components

What declarations are built into: layouts, appenders and maps of appenders.
-/

namespace LoggingFacade

inductive Component where
  | layout (layout : Layout)
  | appender (appender : Appender)
  | appenders (map : AppenderMap)

namespace Component

def elementType : Component → ElementType
  | layout _ => .layout
  | appender _ => .appender
  | appenders _ => .appenders

def asLayout? : Component → Option Layout
  | layout l => some l
  | _ => none

def asAppender? : Component → Option Appender
  | appender a => some a
  | _ => none

end Component
end LoggingFacade
