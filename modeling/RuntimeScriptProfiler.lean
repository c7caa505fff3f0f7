import RuntimeScriptProfiler.Profiler.FrameFlag
import RuntimeScriptProfiler.Profiler.Projection
import RuntimeScriptProfiler.Profiler.Durability
import RuntimeScriptProfiler.Framework.Intervals
import RuntimeScriptProfiler.Profiler.Accounting
import RuntimeScriptProfiler.Framework.X86
import RuntimeScriptProfiler.Profiler.Trampoline
import RuntimeScriptProfiler.Profiler.Patches
import RuntimeScriptProfiler.Profiler.Report
import RuntimeScriptProfiler.Framework.FloatValue
import RuntimeScriptProfiler.Profiler.Exactness
import RuntimeScriptProfiler.Profiler.Process
import RuntimeScriptProfiler.Profiler.Calls
import RuntimeScriptProfiler.Profiler.Machine
import RuntimeScriptProfiler.Framework.PrefixCode
import RuntimeScriptProfiler.Profiler.Reader
import RuntimeScriptProfiler.Framework.FloatRounding
import RuntimeScriptProfiler.Profiler.Accuracy
import RuntimeScriptProfiler.Framework.Columns
import RuntimeScriptProfiler.Log.Outline
import RuntimeScriptProfiler.Framework.Spread
import RuntimeScriptProfiler.Framework.VirtualMemory
import RuntimeScriptProfiler.Profiler.Protection
import RuntimeScriptProfiler.Framework.Passes
import RuntimeScriptProfiler.Host.PluginManager
import RuntimeScriptProfiler.Host.Messages
import RuntimeScriptProfiler.Host.Install
import RuntimeScriptProfiler.Host.Profiler
